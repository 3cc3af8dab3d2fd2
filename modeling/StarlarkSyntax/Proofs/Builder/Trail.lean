import StarlarkSyntax.Proofs.Builder.Leaves
import StarlarkSyntax.Proofs.Builder.Since
/-!
# Where tokens stand among the events

Of an event, only its sort matters for the tokens: what a beginning has turned out to be and what is
wrapped around it is left out of the *trail* of a builder. Each operation adds one event to the trail or cuts
it off (`trail_complete`, `trail_truncate`, `trail_precede`). The steps of the making of a tree are of the
same sorts as the events (`map_sort_resolve`), so that a token is put in for each token in the trail, and the
significant ones are put in one after another (`unplaced_foldl`).
-/

set_option autoImplicit false

namespace StarlarkSyntax

/-! ## Trails -/

/-- The sort of an event: a beginning is like every other. -/
def Event.sort : Event → Event
  | start _ _ => .start .unresolved none
  | event => event

namespace Event

/-- Any beginning. -/
def anyStart : Event := .start .unresolved none

@[simp] theorem sort_withWrapper (wrapper? : Option Nat) (event : Event) :
    (event.withWrapper wrapper?).sort = event.sort := by
  cases event <;> rfl

@[simp] theorem sort_complete (completion : Completion) (event : Event) :
    (event.complete completion).sort = event.sort := by
  cases event <;> rfl

theorem sort_eq_token {event : Event} : event.sort = token ↔ event = token := by
  cases event <;> simp [sort]

theorem count_map_sort (events : List Event) : (events.map sort).count token = events.count token := by
  induction events with
  | nil => rfl
  | cons event events ih =>
      rw [List.map_cons, List.count_cons, List.count_cons, ih]
      by_cases is : event = token <;> simp [is, sort_eq_token]

/-- The sorts of some events. -/
def sorts (events : Array Event) : List Event := events.toList.map sort

@[simp] theorem length_sorts (events : Array Event) : (sorts events).length = events.size := by
  simp [sorts]

theorem getElem?_sorts (events : Array Event) (i : Nat) : (sorts events)[i]? = events[i]?.map sort := by
  rw [sorts, List.getElem?_map, Array.getElem?_toList]

theorem drop_sorts {events : Array Event} {i : Nat} {event : Event} (found : events[i]? = some event) :
    (sorts events).drop i = event.sort :: (sorts events).drop (i + 1) := by
  have inside : i < (sorts events).length := by
    rw [length_sorts]
    exact (Array.getElem?_eq_some_iff.1 found).1
  have same : (sorts events)[i] = event.sort := by
    rw [List.getElem_eq_iff, getElem?_sorts, found]
    rfl
  rw [List.drop_eq_getElem_cons inside, same]

/-- Changing the wrapper or the completion of an event changes no sort. -/
theorem sorts_modify (events : Array Event) (i : Nat) {change : Event → Event}
    (same : ∀ event, (change event).sort = event.sort) : sorts (events.modify i change) = sorts events := by
  refine List.ext_getElem? fun j => ?_
  rw [getElem?_sorts, getElem?_sorts, Array.getElem?_modify]
  split
  · cases events[j]? <;> simp [same]
  · rfl

/-- Taking out a beginning changes no sort. -/
theorem sorts_tombstone {events : Array Event} {i : Nat} (at_beginning : (sorts events)[i]? = some anyStart) :
    sorts (events.setIfInBounds i .tombstone) = sorts events := by
  refine List.ext_getElem? fun j => ?_
  rw [getElem?_sorts, getElem?_sorts, Array.getElem?_setIfInBounds]
  split
  · rename_i same
    subst same
    rw [← getElem?_sorts events, at_beginning]
    split
    · rfl
    · rename_i outside
      rw [getElem?_sorts, Array.getElem?_eq_none (Nat.not_lt.1 outside)] at at_beginning
      contradiction
  · rfl

end Event

namespace Builder

open Event (sorts anyStart)

/-- The sorts of the events that a builder has recorded. -/
def trail (builder : Builder) : List Event := sorts builder.events

theorem length_trail (builder : Builder) : builder.trail.length = builder.events.size :=
  Event.length_sorts _

theorem trail_push (builder : Builder) (event : Event) :
    (builder.push event).trail = builder.trail ++ [event.sort] := by
  simp [trail, sorts, push]

theorem trail_advance {builder : Builder} (more : builder.atEnd = false) :
    builder.advance.trail = builder.trail ++ [.token] := by
  rw [advance, if_neg (by simp [more])]
  exact trail_push builder .token

theorem trail_complete (builder : Builder) (position : Nat) (completion : Completion) :
    (builder.complete position completion).trail = builder.trail ++ [.finish] := by
  refine (trail_push { builder with events := builder.events.modify position (.complete completion) }
    .finish).trans ?_
  rw [trail, Event.sorts_modify _ _ (Event.sort_complete completion)]
  rfl

theorem trail_truncate (length : Nat) (builder : Builder) :
    (builder.truncate length).trail = builder.trail.take length := by
  have unlinked (links : List (Nat × Nat)) (events : Array Event) :
      sorts (unlink length links events).2 = sorts events := by
    induction links generalizing events with
    | nil => rfl
    | cons link links ih =>
        unfold unlink
        split
        · rfl
        · rw [ih, Event.sorts_modify _ _ (Event.sort_withWrapper none)]
  rw [trail, events_truncate, unlinked, sorts, Array.toList_shrink, List.map_take]
  rfl

theorem trail_precede (completed : Completed) (builder : Builder) :
    (builder.precede completed).2.trail = builder.trail ++ [anyStart] :=
  (Event.sorts_modify _ _ (Event.sort_withWrapper _)).trans (trail_push builder _)

end Builder

/-! ## Steps -/

namespace Step

open Event (sorts anyStart)

/-- The sort of event that a step is made of. -/
def sort : Step → Event
  | opening _ => anyStart
  | finish => .finish
  | token => .token
  | error message => .error message

theorem sort_eq_token {step : Step} : step.sort = .token ↔ step = .token := by
  cases step <;> simp [sort, anyStart]

/-- The wrappers of all beginnings are beginnings. -/
def Chained (events : Array Event) : Prop :=
  ∀ i wrapper : Nat, events[i]?.bind Event.wrapper? = some wrapper →
    (sorts events)[wrapper]? = some anyStart

/-- Beginnings can be taken out. -/
theorem Chained.tombstone {events : Array Event} (chained : Chained events) {i : Nat}
    (own : (sorts events)[i]? = some anyStart) : Chained (events.setIfInBounds i .tombstone) := by
  intro j wrapper found
  rw [Event.sorts_tombstone own]
  rw [Array.getElem?_setIfInBounds] at found
  split at found
  · split at found <;> contradiction
  · exact chained j wrapper found

/-- Following a chain changes no sort. -/
theorem unchain_sorts {events : Array Event} (chained : Chained events) {wrapper? : Option Nat}
    (leads : ∀ wrapper ∈ wrapper?, (sorts events)[wrapper]? = some anyStart) (fuel : Nat)
    (chain : List Completion) : Chained (unchain fuel wrapper? events chain).2 ∧
      sorts (unchain fuel wrapper? events chain).2 = sorts events := by
  fun_induction unchain fuel wrapper? events chain with
  | case1 | case2 => exact ⟨chained, rfl⟩
  | case3 fuel index events chain completion wrapper? found ih =>
      have own := leads index rfl
      obtain ⟨chained', same⟩ := ih (chained.tombstone own) (fun wrapper is => by
        rw [Event.sorts_tombstone own]
        exact chained index wrapper (by rw [found]; exact is))
      exact ⟨chained', same.trans (Event.sorts_tombstone own)⟩
  | case4 fuel index events chain other =>
      have own := leads index rfl
      exact ⟨chained.tombstone own, Event.sorts_tombstone own⟩

theorem map_sort_push (steps : Array Step) (step : Step) (more : List Event) :
    (steps.push step).toList.map sort ++ more = steps.toList.map sort ++ step.sort :: more := by
  simp

/-- From an index on, a step is made of each event, and of the same sort. -/
theorem map_sort_resolveFrom {count index : Nat} {events : Array Event} (steps : Array Step)
    (chained : Chained events) (size : events.size = index + count) :
    (resolveFrom count index events steps).toList.map sort =
      steps.toList.map sort ++ (sorts events).drop index := by
  induction count generalizing index events steps with
  | zero =>
      rw [resolveFrom, List.drop_of_length_le (by rw [Event.length_sorts]; omega), List.append_nil]
  | succ count ih =>
      have size' : events.size = index + 1 + count := by omega
      unfold resolveFrom
      split
      · rename_i completion wrapper? found
        have own : (sorts events)[index]? = some anyStart := by
          rw [Event.getElem?_sorts, found]
          rfl
        have leads : ∀ wrapper ∈ wrapper?, (sorts (events.setIfInBounds index .tombstone))[wrapper]? =
            some anyStart := by
          intro wrapper is
          rw [Event.sorts_tombstone own]
          exact chained index wrapper (by rw [found]; exact is)
        obtain ⟨chained', same⟩ := unchain_sorts (chained.tombstone own) leads
          (events.setIfInBounds index .tombstone).size [completion]
        have kept : (unchain (events.setIfInBounds index .tombstone).size wrapper?
            (events.setIfInBounds index .tombstone) [completion]).2.size = index + 1 + count := by
          have sizes := congrArg List.length (same.trans (Event.sorts_tombstone own))
          rw [Event.length_sorts, Event.length_sorts] at sizes
          omega
        dsimp only
        rw [ih _ chained' kept, same, Event.sorts_tombstone own, Event.drop_sorts found, map_sort_push]
        rfl
      · rename_i found
        rw [ih _ chained size', Event.drop_sorts found, map_sort_push]
        rfl
      · rename_i found
        rw [ih _ chained size', Event.drop_sorts found, map_sort_push]
        rfl
      · rename_i found
        rw [ih _ chained size', Event.drop_sorts found, map_sort_push]
        rfl
      · rename_i outside
        rw [Array.getElem?_eq_none_iff] at outside
        omega

/-- A step is made of each event, and of the same sort. -/
theorem map_sort_resolve {events : Array Event} (chained : Chained events) :
    (resolve events).map sort = sorts events := by
  rw [resolve, map_sort_resolveFrom #[] chained (Nat.zero_add _).symm]
  rfl

end Step

/-! ## Which tokens are put in -/

namespace Assembly

/-- The tokens that a grammar sees and that are not in the tree yet. -/
def unplaced (assembly : Assembly) : List Token := assembly.tokens.filter (·.kind.isSignificant)

@[simp] theorem unplaced_push (tree : Tree) (assembly : Assembly) :
    (assembly.push tree).unplaced = assembly.unplaced := by
  rw [unplaced, tokens_push]
  rfl

/-- Right after the tokens that were passed over comes the next one that a grammar sees. -/
theorem unplaced_flushWhile (tokens : List Token) (assembly : Assembly) :
    ((flushWhile (!·.kind.isSignificant) tokens assembly).tokens = [] ∧
        tokens.filter (·.kind.isSignificant) = []) ∨
      ∃ token rest, (flushWhile (!·.kind.isSignificant) tokens assembly).tokens = token :: rest ∧
        token.kind.isSignificant = true ∧
        tokens.filter (·.kind.isSignificant) = token :: rest.filter (·.kind.isSignificant) := by
  induction tokens generalizing assembly with
  | nil => exact .inl ⟨rfl, rfl⟩
  | cons token tokens ih =>
      unfold flushWhile
      split
      · rename_i passed
        rw [List.filter_cons_of_neg (by simpa using passed)]
        exact ih _
      · rename_i stops
        have significant : token.kind.isSignificant = true := by simpa using stops
        exact .inr ⟨token, tokens, rfl, significant, List.filter_cons_of_pos significant⟩

@[simp] theorem unplaced_flushSkipped (assembly : Assembly) :
    assembly.flushSkipped.unplaced = assembly.unplaced := by
  unfold unplaced flushSkipped
  obtain ⟨none, nothing⟩ | ⟨token, rest, next, significant, left⟩ :=
    unplaced_flushWhile assembly.tokens assembly
  · rw [none, nothing]
    rfl
  · rw [next, left]
    exact List.filter_cons_of_pos significant

theorem exists_flushSkipped {assembly : Assembly} {token : Token} {left : List Token}
    (next : assembly.unplaced = token :: left) :
    ∃ rest, assembly.flushSkipped.tokens = token :: rest := by
  obtain ⟨-, nothing⟩ | ⟨token', rest, first, -, left'⟩ := unplaced_flushWhile assembly.tokens assembly
  · rw [unplaced, nothing] at next
    cases next
  · rw [unplaced, left'] at next
    cases next
    exact ⟨rest, first⟩

theorem unplaced_openNode (kind : NodeKind) (message? : Option String) (assembly : Assembly) :
    (assembly.openNode kind message?).unplaced = assembly.unplaced := by
  unfold openNode
  dsimp only
  split
  · rfl
  · exact unplaced_flushSkipped assembly

theorem unplaced_opening (completions : List Completion) (assembly : Assembly) :
    (completions.foldl openCompletion assembly).unplaced = assembly.unplaced := by
  induction completions generalizing assembly with
  | nil => rfl
  | cons completion completions ih =>
      refine (ih _).trans ?_
      cases completion with
      | unresolved | abandoned => rfl
      | node kind => exact unplaced_openNode kind none assembly
      | error message => exact unplaced_openNode .error (some message) assembly

theorem unplaced_close (assembly : Assembly) : assembly.close.unplaced = assembly.unplaced := by
  unfold close
  split
  · exact unplaced_push _ _
  · rfl

/-- The next token is taken for a token among the steps, and none for anything else. -/
theorem unplaced_step (assembly : Assembly) (step : Step) :
    (assembly.step step).unplaced = assembly.unplaced.drop ([step.sort].count .token) := by
  cases step with
  | opening completions => exact unplaced_opening completions assembly
  | finish => exact unplaced_close assembly
  | token =>
      change assembly.takeToken.unplaced = assembly.unplaced.drop 1
      rw [← unplaced_flushSkipped assembly, takeToken]
      obtain ⟨none, -⟩ | ⟨token, rest, next, significant, -⟩ :=
        unplaced_flushWhile assembly.tokens assembly
      · rw [← flushSkipped] at none
        simp [unplaced, none]
      · rw [← flushSkipped] at next
        simp [unplaced, next, significant]
  | error message => exact (unplaced_push _ _).trans (unplaced_flushSkipped assembly)

theorem unplaced_foldl (steps : List Step) (assembly : Assembly) :
    (steps.foldl step assembly).unplaced =
      assembly.unplaced.drop ((steps.map Step.sort).count .token) := by
  induction steps generalizing assembly with
  | nil => rfl
  | cons step steps ih =>
      rw [List.foldl_cons, ih, unplaced_step, List.drop_drop, ← List.count_append, List.map_cons]
      rfl

/-- A run that is not over yet goes on from where its first steps lead. -/
theorem run_append (earlier later : List Step) (step : Step) (assembly : Assembly) :
    run (earlier ++ step :: later) assembly =
      run (step :: later) (earlier.foldl Assembly.step assembly) := by
  induction earlier generalizing assembly with
  | nil => rfl
  | cons first earlier ih =>
      rw [List.cons_append, run, ih]
      · rfl
      · simp

end Assembly
end StarlarkSyntax
