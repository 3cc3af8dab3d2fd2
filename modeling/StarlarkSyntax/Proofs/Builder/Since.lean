import Mathlib.Data.List.TakeWhile
import StarlarkSyntax.Builder.Basic
/-!
# What a builder keeps while it goes on

A rule of a grammar leaves everything alone that was described before it began: it may take back
what it has described itself, but never more than that. `Builder.Since base builder` says that
`builder` may have come of `base` in this way. It has the same tokens and the same depth, the events
of `base` are all still there and stand unchanged before any new ones, and no link of `base` is
gone.

`Since` is kept by every operation whose marker was made since `base`, which is all that a rule may
use. The marker of `Builder.precede` needs most care: the wrappers that a node has already are
followed to the outermost, which is not older than the node because a wrapper always comes after
what it wraps (`le_outermost`).
-/

set_option autoImplicit false

namespace StarlarkSyntax

namespace Event

@[simp] theorem wrapper?_withWrapper_none (event : Event) :
    (event.withWrapper none).wrapper? = none := by
  cases event <;> rfl

@[simp] theorem withWrapper_withWrapper (event : Event) (v w : Option Nat) :
    (event.withWrapper v).withWrapper w = event.withWrapper w := by
  cases event <;> rfl

@[simp] theorem wrapper?_complete (event : Event) (completion : Completion) :
    (event.complete completion).wrapper? = event.wrapper? := by
  cases event <;> rfl

end Event

namespace Builder

/-! ## Links that are taken back -/

theorem unlink_fst (length : Nat) (links : List (Nat × Nat)) (events : Array Event) :
    (unlink length links events).1 = links.dropWhile (length ≤ ·.2) := by
  induction links generalizing events with
  | nil => rfl
  | cons link links ih =>
      obtain ⟨wrapped, wrapper⟩ := link
      by_cases kept : wrapper < length
      · simp [unlink, kept, Nat.not_le.2 kept]
      · simp [unlink, kept, Nat.not_lt.1 kept, ih]

theorem size_unlink (length : Nat) (links : List (Nat × Nat)) (events : Array Event) :
    (unlink length links events).2.size = events.size := by
  induction links generalizing events with
  | nil => rfl
  | cons link links ih =>
      obtain ⟨wrapped, wrapper⟩ := link
      unfold unlink
      split
      · rfl
      · rw [ih, Array.size_modify]

/-- Taking back links changes just the events that were wrapped by them. -/
theorem getElem?_unlink (length : Nat) (links : List (Nat × Nat)) (events : Array Event) (i : Nat) :
    (unlink length links events).2[i]? =
      if (links.takeWhile (length ≤ ·.2)).any (·.1 == i) then
        events[i]?.map (Event.withWrapper none)
      else events[i]? := by
  induction links generalizing events with
  | nil => rfl
  | cons link links ih =>
      obtain ⟨wrapped, wrapper⟩ := link
      unfold unlink
      split
      · rename_i kept
        simp [Nat.not_le.2 kept]
      · rename_i gone
        rw [ih, Array.getElem?_modify]
        simp only [List.takeWhile_cons, Nat.not_lt.1 gone, decide_true, if_true, List.any_cons]
        by_cases same : wrapped = i
        · simp only [same, if_true, beq_self_eq_true, Bool.true_or]
          split <;> cases events[i]? <;> simp
        · simp only [same, if_false, beq_eq_false_iff_ne.2 same, Bool.false_or]

theorem events_truncate (length : Nat) (builder : Builder) :
    (builder.truncate length).events =
      (unlink length builder.links (builder.events.shrink length)).2 := rfl

theorem links_truncate (length : Nat) (builder : Builder) :
    (builder.truncate length).links = builder.links.dropWhile (length ≤ ·.2) :=
  unlink_fst length builder.links _

@[simp] theorem size_truncate (length : Nat) (builder : Builder) :
    (builder.truncate length).events.size = min length builder.events.size := by
  rw [events_truncate, size_unlink, Array.size_shrink]

theorem getElem?_truncate (length : Nat) (builder : Builder) (i : Nat) :
    (builder.truncate length).events[i]? =
      if i < length then
        if (builder.links.takeWhile (length ≤ ·.2)).any (·.1 == i) then
          builder.events[i]?.map (Event.withWrapper none)
        else builder.events[i]?
      else none := by
  rw [events_truncate, getElem?_unlink]
  have shrunk : (builder.events.shrink length)[i]? =
      if i < length then builder.events[i]? else none := by
    rw [← Array.getElem?_toList, Array.toList_shrink, List.getElem?_take, Array.getElem?_toList]
  rw [shrunk]
  split <;> split <;> rfl

/-- Following wrappers never leads back, nor out of what has been described. -/
theorem outermost_between {events : Array Event} {bound : Nat}
    (ordered : ∀ i wrapper : Nat, events[i]?.bind Event.wrapper? = some wrapper →
      i < wrapper ∧ wrapper < bound)
    (fuel : Nat) {index : Nat} (inside : index < bound) :
    index ≤ outermost events fuel index ∧ outermost events fuel index < bound := by
  induction fuel generalizing index with
  | zero => exact ⟨Nat.le_refl _, inside⟩
  | succ fuel ih =>
      unfold outermost
      split
      · rename_i wrapper found
        obtain ⟨later, bounded⟩ := ordered index wrapper found
        have := ih bounded
        omega
      · exact ⟨Nat.le_refl _, inside⟩

/-! ## Builders that come of one another -/

/-- The builder may have come of `base` without taking anything of that back. -/
structure Since (base builder : Builder) : Prop where
  tokens : builder.tokens = base.tokens
  significant : builder.significant = base.significant
  messages : builder.messages = base.messages
  depth : builder.depth = base.depth
  inside : builder.cursor ≤ base.significant.size
  size : base.events.size ≤ builder.events.size
  events : ∀ i < base.events.size, builder.events[i]? = base.events[i]?
  links : ∃ more, builder.links = more ++ base.links ∧
    ∀ link ∈ more, base.events.size ≤ link.1 ∧ base.events.size ≤ link.2
  /-- A wrapper comes after what it wraps. -/
  forward : ∀ i wrapper : Nat, builder.events[i]?.bind Event.wrapper? = some wrapper → i < wrapper
  recorded : ∀ i wrapper : Nat, builder.events[i]?.bind Event.wrapper? = some wrapper →
    (i, wrapper) ∈ builder.links
  /-- The newest link has the newest wrapper. -/
  sorted : builder.links.Pairwise fun newer older => older.2 < newer.2
  bounded : ∀ link ∈ builder.links, link.2 < builder.events.size
  older : ∀ link ∈ base.links, link.2 < base.events.size

namespace Since

variable {base builder : Builder}

theorem self (since : Since base builder) : Since builder builder where
  tokens := rfl
  significant := rfl
  messages := rfl
  depth := rfl
  inside := since.significant ▸ since.inside
  size := Nat.le_refl _
  events := fun _ _ => rfl
  links := ⟨[], rfl, by simp⟩
  forward := since.forward
  recorded := since.recorded
  sorted := since.sorted
  bounded := since.bounded
  older := since.bounded

theorem trans {next : Builder} (first : Since base builder) (second : Since builder next) :
    Since base next where
  tokens := second.tokens.trans first.tokens
  significant := second.significant.trans first.significant
  messages := second.messages.trans first.messages
  depth := second.depth.trans first.depth
  inside := first.significant ▸ second.inside
  size := Nat.le_trans first.size second.size
  events := fun i hi =>
    (second.events i (Nat.lt_of_lt_of_le hi first.size)).trans (first.events i hi)
  links := by
    obtain ⟨more, eq, new⟩ := first.links
    obtain ⟨more', eq', new'⟩ := second.links
    refine ⟨more' ++ more, by rw [eq', eq, List.append_assoc], fun link mem => ?_⟩
    rcases List.mem_append.1 mem with mem | mem
    · exact ⟨Nat.le_trans first.size (new' link mem).1, Nat.le_trans first.size (new' link mem).2⟩
    · exact new link mem
  forward := second.forward
  recorded := second.recorded
  sorted := second.sorted
  bounded := second.bounded
  older := first.older

/-- How deep the nesting is matters to nothing else. -/
theorem atDepth (since : Since base builder) (depth : Nat) :
    Since { base with depth } { builder with depth } :=
  { since with depth := rfl }

/-! ## Operations -/

theorem push (since : Since base builder) {event : Event} (plain : event.wrapper? = none) :
    Since base (builder.push event) := by
  have same : ∀ i wrapper : Nat, (builder.push event).events[i]?.bind Event.wrapper? = some wrapper →
      builder.events[i]?.bind Event.wrapper? = some wrapper := by
    intro i wrapper h
    simp only [Builder.push, Array.getElem?_push] at h
    split at h
    · simp [plain] at h
    · exact h
  have size : (builder.push event).events.size = builder.events.size + 1 := by
    simp [Builder.push]
  exact { since with
    size := by
      have := since.size
      omega
    events := fun i hi => by
      have := since.size
      rw [← since.events i hi, Builder.push, Array.getElem?_push, if_neg (by omega)]
    forward := fun i wrapper h => since.forward i wrapper (same i wrapper h)
    recorded := fun i wrapper h => since.recorded i wrapper (same i wrapper h)
    bounded := fun link mem => by
      have := since.bounded link mem
      omega }

theorem advance (since : Since base builder) : Since base builder.advance := by
  unfold Builder.advance
  split
  · exact since
  · rename_i more
    have inside : builder.cursor + 1 ≤ base.significant.size := by
      simp only [atEnd, since.significant, decide_eq_true_eq] at more
      omega
    have pushed : Since base (builder.push .token) := since.push rfl
    exact { pushed with inside }

theorem missing (since : Since base builder) (message : String) :
    Since base (builder.missing message) :=
  since.push rfl

theorem mark (since : Since base builder) : Since base builder.mark.2 :=
  since.push rfl

/-- The events that were described since may be changed, if they get no new wrappers. -/
theorem change (since : Since base builder) {events : Array Event}
    (size : events.size = builder.events.size)
    (same : ∀ i < base.events.size, events[i]? = builder.events[i]?)
    (wrappers : ∀ i wrapper : Nat, events[i]?.bind Event.wrapper? = some wrapper →
      builder.events[i]?.bind Event.wrapper? = some wrapper) :
    Since base { builder with events } :=
  { since with
    size := size ▸ since.size
    events := fun i hi => (same i hi).trans (since.events i hi)
    forward := fun i wrapper h => since.forward i wrapper (wrappers i wrapper h)
    recorded := fun i wrapper h => since.recorded i wrapper (wrappers i wrapper h)
    bounded := size ▸ since.bounded }

theorem complete (since : Since base builder) {position : Nat} (completion : Completion)
    (new : base.events.size ≤ position) : Since base (builder.complete position completion) := by
  have changed : Since base
      { builder with events := builder.events.modify position (.complete completion) } :=
    since.change (by simp) (fun i hi => by rw [Array.getElem?_modify, if_neg (by omega)])
    (fun i wrapper h => by
      rw [Array.getElem?_modify] at h
      split at h
      · cases found : builder.events[i]? <;> simp_all
      · exact h)
  exact changed.push rfl

theorem truncate (since : Since base builder) {length : Nat} (new : base.events.size ≤ length) :
    Since base (builder.truncate length) := by
  obtain ⟨more, eq, fresh⟩ := since.links
  have split := List.takeWhile_append_dropWhile (p := (length ≤ ·.2)) (l := builder.links)
  have unchanged : ∀ i < base.events.size, (builder.links.takeWhile (length ≤ ·.2)).any
      (·.1 == i) = false := by
    intro i hi
    rw [List.any_eq_false]
    intro link mem
    have cut : length ≤ link.2 := by
      simpa using List.mem_takeWhile_imp mem
    have mem := (List.takeWhile_sublist _).subset mem
    rw [eq, List.mem_append] at mem
    rw [beq_iff_eq]
    rcases mem with mem | mem
    · have := (fresh link mem).1
      omega
    · have := since.older link mem
      omega
  have kept : ∀ i wrapper : Nat, (builder.truncate length).events[i]?.bind Event.wrapper? = some wrapper →
      builder.events[i]?.bind Event.wrapper? = some wrapper ∧
        (builder.links.takeWhile (length ≤ ·.2)).any (·.1 == i) = false := by
    intro i wrapper h
    rw [getElem?_truncate] at h
    split at h
    · split at h
      · cases found : builder.events[i]? <;> simp [found] at h
      · rename_i uncut
        exact ⟨h, eq_false_of_ne_true uncut⟩
    · simp at h
  refine { since with
    size := ?_, events := ?_, links := ?_, forward := ?_, recorded := ?_, sorted := ?_,
    bounded := ?_ }
  · have := since.size
    rw [size_truncate]
    omega
  · intro i hi
    rw [getElem?_truncate, if_pos (by omega), unchanged i hi]
    exact since.events i hi
  · refine ⟨more.dropWhile (length ≤ ·.2), ?_, fun link mem =>
      fresh link ((List.dropWhile_sublist _).subset mem)⟩
    have stops : base.links.dropWhile (length ≤ ·.2) = base.links := by
      cases older : base.links with
      | nil => rfl
      | cons link links =>
          have := since.older link (older ▸ List.mem_cons_self)
          rw [List.dropWhile_cons, if_neg (by simp; omega)]
    rw [links_truncate, eq, List.dropWhile_append, stops]
    split
    · rename_i empty
      simp [List.isEmpty_iff.1 empty]
    · rfl
  · exact fun i wrapper h => since.forward i wrapper (kept i wrapper h).1
  · intro i wrapper h
    obtain ⟨wrapped, uncut⟩ := kept i wrapper h
    have mem := since.recorded i wrapper wrapped
    rw [← split, List.mem_append] at mem
    rw [links_truncate]
    refine mem.resolve_left fun mem => ?_
    exact List.any_eq_false.1 uncut _ mem (beq_self_eq_true i)
  · rw [links_truncate]
    exact since.sorted.sublist (List.dropWhile_sublist _)
  · intro link mem
    rw [links_truncate] at mem
    have inside := since.bounded link ((List.dropWhile_sublist _).subset mem)
    have cut : link.2 < length := by
      have ordered := since.sorted.sublist (List.dropWhile_sublist (length ≤ ·.2))
      have stops := List.head?_dropWhile_not (fun l : Nat × Nat => decide (length ≤ l.2))
        builder.links
      cases left : builder.links.dropWhile (length ≤ ·.2) with
      | nil => simp [left] at mem
      | cons newest links =>
          rw [left] at mem ordered stops
          have kept : ¬ length ≤ newest.2 := by simpa using stops
          rcases List.mem_cons.1 mem with rfl | mem
          · omega
          · have := (List.pairwise_cons.1 ordered).1 link mem
            omega
    rw [size_truncate]
    omega

theorem drop (since : Since base builder) {marker : Marker}
    (new : base.events.size ≤ marker.position) : Since base (builder.drop marker) := by
  unfold Builder.drop
  split
  · exact since.truncate new
  · exact since.change (by simp)
      (fun i hi => by rw [Array.getElem?_setIfInBounds_ne (by omega)])
      (fun i wrapper h => by
        rw [Array.getElem?_setIfInBounds] at h
        split at h
        · split at h <;> simp [Event.tombstone, Event.wrapper?] at h
        · exact h)

theorem rollbackTo (since : Since base builder) {start cursor : Nat}
    (new : base.events.size ≤ start) (inside : cursor ≤ base.significant.size) :
    Since base (builder.rollbackTo start cursor) :=
  { since.truncate new with inside }

theorem precede (since : Since base builder) {completed : Completed}
    (new : base.events.size ≤ completed.start) (inside : completed.start < builder.events.size) :
    Since base (builder.precede completed).2 := by
  have marked := since.mark
  have size : builder.mark.2.events.size = builder.events.size + 1 := by
    simp [Builder.mark, Builder.push]
  obtain ⟨le, lt⟩ := outermost_between (fun i wrapper h =>
      ⟨marked.forward i wrapper h, since.bounded _ (marked.recorded i wrapper h)⟩)
    builder.mark.2.events.size inside
  obtain ⟨more, eq, fresh⟩ := since.links
  have wrappers : ∀ i wrapper : Nat,
      (builder.precede completed).2.events[i]?.bind Event.wrapper? = some wrapper →
        builder.mark.2.events[i]?.bind Event.wrapper? = some wrapper ∨
          i = outermost builder.mark.2.events builder.mark.2.events.size completed.start ∧
            wrapper = builder.events.size := by
    intro i wrapper h
    simp only [Builder.precede, Array.getElem?_modify] at h
    split at h
    · refine .inr ⟨by omega, ?_⟩
      obtain ⟨event, found, wrapped⟩ := Option.bind_eq_some_iff.1 h
      obtain ⟨before, -, rfl⟩ := Option.map_eq_some_iff.1 found
      cases before <;> simp_all [Event.withWrapper, Event.wrapper?, Builder.mark]
    · exact .inl h
  exact { marked with
    size := by
      have := since.size
      simp only [Builder.precede, Array.size_modify]
      omega
    events := fun i hi => by
      rw [← marked.events i hi]
      simp only [Builder.precede, Array.getElem?_modify]
      rw [if_neg (by omega)]
    links := by
      refine ⟨(_, builder.events.size) :: more, by rw [List.cons_append, ← eq]; rfl, ?_⟩
      rw [List.forall_mem_cons]
      exact ⟨⟨Nat.le_trans new le, since.size⟩, fresh⟩
    forward := fun i wrapper h => by
      rcases wrappers i wrapper h with old | ⟨rfl, rfl⟩
      · exact marked.forward i wrapper old
      · exact lt
    recorded := fun i wrapper h => by
      rcases wrappers i wrapper h with old | ⟨rfl, rfl⟩
      · exact List.mem_cons_of_mem _ (marked.recorded i wrapper old)
      · exact List.mem_cons_self
    sorted := List.pairwise_cons.2 ⟨fun link mem => since.bounded link mem, since.sorted⟩
    bounded := by
      simp only [Builder.precede, Array.size_modify, size]
      refine List.forall_mem_cons.2 ⟨Nat.lt_succ_self _, fun link mem => ?_⟩
      exact Nat.lt_succ_of_lt (since.bounded link mem) }

/-- If nothing more has been described and the cursor stands where it stood, nothing has changed. -/
theorem eq_of_size (since : Since base builder) (size : builder.events.size = base.events.size)
    (cursor : builder.cursor = base.cursor) : builder = base := by
  have events : builder.events = base.events := by
    refine Array.ext_getElem? fun i => ?_
    by_cases inside : i < base.events.size
    · exact since.events i inside
    · rw [Array.getElem?_eq_none (by omega), Array.getElem?_eq_none (by omega)]
  have links : builder.links = base.links := by
    obtain ⟨more, eq, fresh⟩ := since.links
    cases more with
    | nil => exact eq
    | cons link more =>
        have new := (fresh link List.mem_cons_self).2
        have old := since.bounded link (eq ▸ List.mem_append_left _ List.mem_cons_self)
        omega
  obtain ⟨tokens, significant, _, _, _, messages, depth⟩ := builder
  obtain ⟨rfl, rfl, rfl, rfl⟩ : tokens = base.tokens ∧ significant = base.significant ∧
      messages = base.messages ∧ depth = base.depth :=
    ⟨since.tokens, since.significant, since.messages, since.depth⟩
  cases events
  cases links
  cases cursor
  rfl

/-- Taking back everything that was described since leaves what there was before. -/
theorem rollbackTo_eq (since : Since base builder)
    (inside : base.cursor ≤ base.significant.size) :
    builder.rollbackTo base.events.size base.cursor = base := by
  refine (since.rollbackTo (Nat.le_refl _) inside).eq_of_size ?_ rfl
  have size := since.size
  change (builder.truncate base.events.size).events.size = base.events.size
  rw [size_truncate]
  omega

end Since
end Builder
end StarlarkSyntax
