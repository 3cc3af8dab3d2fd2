import StarlarkSyntax.Proofs.Builder.Describe
/-!
# Benches stand for drafts

A bench goes along with a draft and its plan: the builder reads the tokens that the page has left, its
events describe the plan, and for each marker that may be used still the bench holds the places of its
acts and the cursor of the page that is remembered with it (`Stands`). Then whatever is allowed on the
draft can be done on the bench, and both keep together (`Stands.step`, `Stands.run`).
-/

set_option autoImplicit false

namespace StarlarkSyntax

/-- What is held for a marker that is not spent. -/
def Record.held (acts : List Act) (cursor marker : Nat) (record : Record) : Held :=
  match record.status with
  | .opened => .marker ⟨Act.place acts marker, Act.place acts record.root, cursor⟩
  | _ => .completed ⟨Act.place acts record.root, cursor⟩

/-- The builder has some of the significant tokens before it. -/
structure Reads (lexed : Lexed) (rest : List Token) (builder : Builder) : Prop where
  tokens : builder.tokens = lexed.tokens
  messages : builder.messages = lexed.errors.map LexicalError.message
  significant : builder.significant = (lexed.tokens.filter (·.kind.isSignificant)).toArray
  inside : builder.cursor ≤ builder.significant.size
  rest : rest = builder.significant.toList.drop builder.cursor

/-- The bench holds what is known of a marker. -/
def Keeps (lexed : Lexed) (acts : List Act) (held : List Held) (marker : Nat) (record : Record) :
    Prop :=
  ∃ cursor, cursor ≤ (lexed.tokens.filter (·.kind.isSignificant)).length ∧
    record.saved.rest = (lexed.tokens.filter (·.kind.isSignificant)).drop cursor ∧
    held[marker]? = some (record.held acts cursor marker)

/-- The bench stands for the draft, of which there is a plan. -/
structure Stands (lexed : Lexed) (plan : Plan) (draft : Draft) (bench : Bench) : Prop where
  reads : Reads lexed draft.page.rest bench.builder
  describes : ∃ next, Describes plan next bench.builder
  count : bench.held.length = plan.count
  keeps : ∀ marker record, draft.records[marker]? = some record → record.status ≠ .spent →
    Keeps lexed plan.acts bench.held marker record

/-- Only the cursor and the tokens matter. -/
theorem Reads.change {lexed : Lexed} {rest rest' : List Token} {builder builder' : Builder}
    (reads : Reads lexed rest builder) (tokens : builder'.tokens = builder.tokens)
    (messages : builder'.messages = builder.messages)
    (significant : builder'.significant = builder.significant)
    (cursor : builder'.cursor = builder.cursor) (same : rest' = rest) :
    Reads lexed rest' builder' where
  tokens := tokens.trans reads.tokens
  messages := messages.trans reads.messages
  significant := significant.trans reads.significant
  inside := by
    rw [cursor, significant]
    exact reads.inside
  rest := by
    rw [same, cursor, significant]
    exact reads.rest

theorem Reads.atEnd {lexed : Lexed} {rest : List Token} {builder : Builder}
    (reads : Reads lexed rest builder) : builder.atEnd = rest.isEmpty := by
  rw [Builder.atEnd, reads.rest, Bool.eq_iff_iff]
  simp [List.drop_eq_nil_iff]

/-- What is held stays right as long as the places stay the same. -/
theorem Keeps.change {lexed : Lexed} {acts acts' : List Act} {held held' : List Held}
    {marker : Nat} {record : Record} (keeps : Keeps lexed acts held marker record)
    (own : Act.place acts' marker = Act.place acts marker)
    (root : Act.place acts' record.root = Act.place acts record.root)
    (same : held'[marker]? = held[marker]?) : Keeps lexed acts' held' marker record := by
  obtain ⟨cursor, inside, rest, found⟩ := keeps
  refine ⟨cursor, inside, rest, ?_⟩
  rw [same, found, Record.held, Record.held, own, root]

namespace Page

theorem rest_close {kind : NodeKind} {message? : Option String} {page next : Page}
    (closed : page.close kind message? = some next) : next.rest = page.rest := by
  unfold close at closed
  split at closed
  · contradiction
  · cases closed
    rfl

theorem rest_splice {page next : Page} (spliced : page.splice = some next) :
    next.rest = page.rest := by
  unfold splice at spliced
  split at spliced
  · contradiction
  · cases spliced
    rfl

theorem rest_wrap {made marker : Nat} {page next : Page}
    (wrapped : page.wrap made marker = some next) : next.rest = page.rest := by
  unfold wrap at wrapped
  split at wrapped
  · contradiction
  · cases wrapped
    rfl

end Page

/-- A marker that may still be used is not the one that has just been spent. -/
theorem live_of_modify {records : List Record} {marker other : Nat} {record : Record}
    (found : (records.modify marker ({ · with status := .spent }))[other]? = some record)
    (live : record.status ≠ .spent) : marker ≠ other ∧ records[other]? = some record := by
  by_cases same : marker = other
  · subst same
    rw [List.getElem?_modify_eq] at found
    obtain ⟨before, -, rfl⟩ := Option.map_eq_some_iff.1 found
    exact absurd rfl live
  · exact ⟨same, (List.getElem?_modify_ne _ _ same).symm.trans found⟩

namespace Follows

variable {start : Page} {plan : Plan} {draft : Draft}

/-- Markers that may be used still have been made, and so have their first markers. -/
theorem owned (follows : Follows start plan draft) {marker : Nat} {record : Record}
    (found : draft.records[marker]? = some record) (live : record.status ≠ .spent) :
    marker ∈ Act.owners plan.acts ∧ record.root ∈ Act.owners plan.acts ∧ record.root ≤ marker := by
  have remembers := follows.remembers marker record found live
  obtain ⟨wrappers, mem, last⟩ := remembers.begun
  exact ⟨follows.ordered.owned marker (Act.mem_opened_of_mem mem (List.mem_of_getLast? last)),
    remembers.mem_owners, remembers.root_le⟩

/-- A marker was made by the last act if its place is the last. -/
theorem last?_iff (follows : Follows start plan draft) {marker : Nat}
    (mem : marker ∈ Act.owners plan.acts) :
    plan.last? = some marker ↔ Act.place plan.acts marker + 1 = plan.acts.length := by
  have inside := Act.place_lt_length mem
  rw [Plan.last?, List.getLast?_eq_getElem?]
  constructor
  · intro last
    obtain ⟨act, found, owner⟩ := Option.bind_eq_some_iff.1 last
    have := follows.ordered.eq_place found owner
    omega
  · intro last
    obtain ⟨act, found, owner⟩ := follows.ordered.getElem?_place mem
    rw [← last, Nat.add_sub_cancel, found]
    exact owner

end Follows

namespace Stands

variable {lexed : Lexed} {start : Page} {plan : Plan} {draft : Draft} {bench : Bench}
variable (stands : Stands lexed plan draft bench) (follows : Follows start plan draft)
variable (empty : start.frames = [])

include stands follows

/-- An act that makes no marker is added, and the event that says the same. -/
theorem push {act : Act} (plain : act.owner? = none) {event : Event}
    (same : ∀ completion next place, act.event completion next place = event) {page : Page}
    {builder : Builder} (events : builder.events = bench.builder.events.push event)
    (links : builder.links = bench.builder.links) (reads : Reads lexed page.rest builder) :
    Stands lexed (plan.push act) { draft with page } ⟨builder, bench.held⟩ where
  reads := reads
  describes := by
    obtain ⟨next, describes⟩ := stands.describes
    have pushed := describes.push follows.ordered plain
    rw [same] at pushed
    refine ⟨next, ⟨?_, ?_, pushed.linked⟩⟩
    · have linking := pushed.linking
      exact ⟨by rw [links, events]; exact linking.recorded, by rw [links]; exact linking.sorted,
        by rw [links]; exact linking.forward⟩
    · rw [events]
      exact pushed.events
  count := stands.count
  keeps := by
    intro marker record found live
    obtain ⟨own, root, -⟩ := follows.owned found live
    exact (stands.keeps marker record found live).change (Act.place_append own _)
      (Act.place_append root _) rfl

theorem mark : Stands lexed plan.mark draft.mark
    ⟨bench.builder.mark.2, bench.held ++ [.marker bench.builder.mark.1]⟩ where
  reads := ⟨stands.reads.tokens, stands.reads.messages, stands.reads.significant,
    stands.reads.inside, stands.reads.rest⟩
  describes := by
    obtain ⟨next, describes⟩ := stands.describes
    exact ⟨_, describes.mark follows.ordered follows.bounded
      (follows.unresolved plan.count (Nat.le_refl _))⟩
  count := by
    show (bench.held ++ [_]).length = plan.count + 1
    rw [List.length_append, stands.count]
    rfl
  keeps := by
    intro marker record found live
    change (draft.records ++ [_])[marker]? = some record at found
    show Keeps lexed (plan.acts ++ [.opening plan.count []]) (bench.held ++ [_]) marker record
    rw [Follows.getElem?_concat] at found
    by_cases newest : marker = draft.records.length
    · rw [if_pos newest] at found
      cases found
      subst newest
      have significant := stands.reads.significant
      have inside := stands.reads.inside
      have rest := stands.reads.rest
      rw [significant] at inside rest
      refine ⟨bench.builder.cursor, by simpa using inside, by simpa using rest, ?_⟩
      have place : Act.place (plan.acts ++ [.opening plan.count []]) plan.count =
          bench.builder.events.size := by
        obtain ⟨next, describes⟩ := stands.describes
        rw [describes.size]
        exact Act.place_last (fun mem => Nat.lt_irrefl _ (follows.bounded _ mem)) rfl
      rw [Follows.getElem?_concat, follows.count, if_pos stands.count.symm]
      simp only [Record.held, place]
      rfl
    · rw [if_neg newest] at found
      obtain ⟨own, root, -⟩ := follows.owned found live
      refine (stands.keeps marker record found live).change (Act.place_append own _)
        (Act.place_append root _) ?_
      rw [Follows.getElem?_concat, if_neg]
      rw [stands.count, ← follows.count]
      exact newest

theorem complete {draft' : Draft} {marker : Nat} {kind : NodeKind} {message? : Option String}
    (done : draft.complete marker kind message? = some draft') (completion : Completion) :
    ∃ held, bench.marker? marker = some held ∧ Stands lexed (plan.complete marker completion) draft'
      ⟨bench.builder.complete held.position completion,
        bench.held.set marker (.completed ⟨held.start, held.cursor⟩)⟩ := by
  obtain ⟨record, page, found, is, -, closed, rfl⟩ := Draft.complete_spec done
  have live : record.status ≠ .spent := by rw [is]; nofun
  obtain ⟨cursor, inside, rest, held⟩ := stands.keeps marker record found live
  obtain ⟨own, root, -⟩ := follows.owned found live
  rw [Record.held, is] at held
  refine ⟨⟨Act.place plan.acts marker, Act.place plan.acts record.root, cursor⟩,
    by rw [Bench.marker?, held], ?_⟩
  refine
    { reads := stands.reads.change rfl rfl rfl rfl (Page.rest_close closed)
      describes := ?_
      count := (List.length_set).trans stands.count
      keeps := ?_ }
  · obtain ⟨next, describes⟩ := stands.describes
    have resolved : Describes (plan.resolve marker completion) next { bench.builder with
        events := bench.builder.events.modify (Act.place plan.acts marker)
          (Event.complete completion) } := describes.resolve follows.ordered own ?_ ?_
    · exact ⟨next, resolved.push follows.ordered rfl⟩
    · rw [Array.getElem?_modify, if_pos rfl, describes.event_at follows.ordered own]
      rfl
    · intro i other
      rw [Array.getElem?_modify, if_neg (Ne.symm other)]
  · intro other record' found' live'
    show Keeps lexed (plan.acts ++ [.finish]) (bench.held.set marker _) other record'
    by_cases same : marker = other
    · subst same
      change (draft.records.modify marker _)[marker]? = some record' at found'
      rw [List.getElem?_modify_eq, found] at found'
      cases found'
      refine ⟨cursor, inside, rest, ?_⟩
      have short : marker < bench.held.length := (List.getElem?_eq_some_iff.1 held).1
      rw [List.getElem?_set_self short, Record.held]
      exact congrArg (fun place => some (Held.completed ⟨place, cursor⟩))
        (Act.place_append root _).symm
    · change (draft.records.modify marker _)[other]? = some record' at found'
      rw [List.getElem?_modify_ne _ _ same] at found'
      obtain ⟨own', root', -⟩ := follows.owned found' live'
      exact (stands.keeps other record' found' live').change (Act.place_append own' _)
        (Act.place_append root' _) (List.getElem?_set_ne same)

omit follows in
/-- A node is to be wrapped no more. -/
theorem keep {draft' : Draft} {marker : Nat} (kept : draft.keep marker = some draft') :
    ∃ held, bench.completed? marker = some held ∧
      Stands lexed plan draft' { bench with held := bench.held.set marker .gone } := by
  obtain ⟨record, found, is, rfl⟩ := Draft.keep_spec kept
  obtain ⟨cursor, -, -, held⟩ := stands.keeps marker record found (by rw [is]; nofun)
  rw [Record.held, is] at held
  refine ⟨⟨Act.place plan.acts record.root, cursor⟩, by rw [Bench.completed?, held], ?_⟩
  refine
    { reads := stands.reads
      describes := stands.describes
      count := List.length_set.trans stands.count
      keeps := ?_ }
  intro other record' found' live'
  obtain ⟨ne, found'⟩ := live_of_modify found' live'
  exact (stands.keeps other record' found' live').change rfl rfl (List.getElem?_set_ne ne)

theorem drop {draft' : Draft} {marker : Nat} (dropped : draft.drop marker = some draft') :
    ∃ held, bench.marker? marker = some held ∧ Stands lexed (plan.drop marker) draft'
      ⟨bench.builder.drop held, bench.held.set marker .gone⟩ := by
  obtain ⟨record, page, found, is, -, spliced, rfl⟩ := Draft.drop_spec dropped
  have live : record.status ≠ .spent := by rw [is]; rintro ⟨⟩
  obtain ⟨cursor, -, -, held⟩ := stands.keeps marker record found live
  obtain ⟨own, root, -⟩ := follows.owned found live
  obtain ⟨next, describes⟩ := stands.describes
  rw [Record.held, is] at held
  refine ⟨⟨Act.place plan.acts marker, Act.place plan.acts record.root, cursor⟩,
    by rw [Bench.marker?, held], ?_⟩
  unfold Plan.drop Builder.drop
  dsimp only
  rw [describes.size]
  by_cases last : plan.last? = some marker
  · -- Nothing was described since the mark, so that it can be forgotten altogether.
    rw [if_pos last, if_pos ((follows.last?_iff own).1 last)]
    have below (other : Nat) (mem : other ∈ Act.owners plan.acts) (ne : other ≠ marker) :
        other < marker := by
      rcases Nat.lt_trichotomy other marker with lt | same | gt
      · exact lt
      · exact absurd same ne
      · have after := follows.ordered.place_lt_place own mem gt
        have inside := Act.place_lt_length mem
        have := (follows.last?_iff own).1 last
        omega
    refine
      { reads := stands.reads.change rfl rfl rfl rfl (Page.rest_splice spliced)
        describes := ⟨_, describes.cut follows.ordered own⟩
        count := List.length_set.trans stands.count
        keeps := ?_ }
    intro other record' found' live'
    obtain ⟨ne, found'⟩ := live_of_modify found' live'
    obtain ⟨own', root', le⟩ := follows.owned found' live'
    have lt := below other own' (Ne.symm ne)
    exact (stands.keeps other record' found' live').change
      (follows.ordered.place_cut own' own lt)
      (follows.ordered.place_cut root' own (Nat.lt_of_le_of_lt le lt)) (List.getElem?_set_ne ne)
  · rw [if_neg last, if_neg (mt (follows.last?_iff own).2 last)]
    refine
      { reads := stands.reads.change rfl rfl rfl rfl (Page.rest_splice spliced)
        describes := ⟨next, ?_⟩
        count := List.length_set.trans stands.count
        keeps := ?_ }
    · -- The marker is outermost in its chain, so that no link is lost with its event.
      obtain ⟨wrappers, mem, ends⟩ := (follows.remembers marker record found live).begun
      have outermost : next marker = none := Act.next_last (describes.linked _ mem) ends
      refine describes.resolve follows.ordered own ?_ fun i other => ?_
      · rw [Array.getElem?_setIfInBounds_self_of_lt, outermost]
        · rfl
        · rw [describes.size]
          exact Act.place_lt_length own
      · exact Array.getElem?_setIfInBounds_ne (Ne.symm other)
    · intro other record' found' live'
      obtain ⟨ne, found'⟩ := live_of_modify found' live'
      exact (stands.keeps other record' found' live').change rfl rfl (List.getElem?_set_ne ne)

/-- Everything is taken back since the first marker of those that a marker wraps. -/
theorem rollback {draft' : Draft} {marker : Nat} (back : draft.rollback marker = some draft') :
    ∃ bench', bench.step (.rollback marker) = some bench' ∧
      Stands lexed (plan.cut ((draft.records[marker]?.map Record.root).getD 0)) draft' bench' := by
  obtain ⟨record, found, live, -, rfl⟩ := Draft.rollback_spec back
  obtain ⟨cursor, inside, rest, held⟩ := stands.keeps marker record found live
  obtain ⟨own, root, le⟩ := follows.owned found live
  obtain ⟨next, describes⟩ := stands.describes
  refine ⟨⟨bench.builder.rollbackTo (Act.place plan.acts record.root) cursor,
    bench.held.set marker .gone⟩, ?_, ?_⟩
  · unfold Bench.step
    dsimp only
    rw [held]
    cases is : record.status with
    | opened | made =>
        rw [Record.held, is]
        rfl
    | spent => exact absurd is live
  · rw [found, Option.map_some, Option.getD_some]
    have cut := describes.cut follows.ordered root
    refine
      { reads := ⟨stands.reads.tokens, stands.reads.messages, stands.reads.significant, ?_, ?_⟩
        describes := ⟨_, ⟨⟨cut.linking.recorded, cut.linking.sorted, cut.linking.forward⟩,
          cut.events, cut.linked⟩⟩
        count := List.length_set.trans stands.count
        keeps := ?_ }
    · show cursor ≤ bench.builder.significant.size
      rw [stands.reads.significant]
      simpa using inside
    · show record.saved.rest = bench.builder.significant.toList.drop cursor
      rw [stands.reads.significant]
      exact rest
    · intro other record' found' live'
      change (draft.records.take record.root ++ _)[other]? = some record' at found'
      have short : record.root < draft.records.length := by
        have := (List.getElem?_eq_some_iff.1 found).1
        omega
      have length : (draft.records.take record.root).length = record.root := by
        rw [List.length_take]
        omega
      -- All markers from the first one on have been spent.
      have lt : other < record.root := by
        by_contra late
        rw [List.getElem?_append_right (by omega), List.getElem?_map] at found'
        obtain ⟨before, -, rfl⟩ := Option.map_eq_some_iff.1 found'
        exact live' rfl
      rw [List.getElem?_append_left (by omega), List.getElem?_take_of_lt lt] at found'
      obtain ⟨own', root', le'⟩ := follows.owned found' live'
      exact (stands.keeps other record' found' live').change
        (follows.ordered.place_cut own' root lt)
        (follows.ordered.place_cut root' root (Nat.lt_of_le_of_lt le' lt))
        (List.getElem?_set_ne (by omega))

theorem precede {draft' : Draft} {marker : Nat} (preceded : draft.precede marker = some draft') :
    ∃ held, bench.completed? marker = some held ∧ Stands lexed (plan.precede marker) draft'
      ⟨(bench.builder.precede held).2,
        bench.held.set marker .gone ++ [.marker (bench.builder.precede held).1]⟩ := by
  obtain ⟨record, page, found, is, wrapped, rfl⟩ := Draft.precede_spec preceded
  have live : record.status ≠ .spent := by rw [is]; nofun
  obtain ⟨cursor, inside, rest, held⟩ := stands.keeps marker record found live
  obtain ⟨own, root, -⟩ := follows.owned found live
  obtain ⟨next, describes⟩ := stands.describes
  obtain ⟨wrappers, mem, ends⟩ := (follows.remembers marker record found live).begun
  rw [Record.held, is] at held
  refine ⟨⟨Act.place plan.acts record.root, cursor⟩, by rw [Bench.completed?, held], ?_⟩
  have new : plan.count ∉ Act.owners plan.acts := fun mem =>
    Nat.lt_irrefl _ (follows.bounded _ mem)
  have place {other : Nat} (mem : other ∈ Act.owners plan.acts) :
      Act.place (plan.precede marker).acts other = Act.place plan.acts other := by
    show Act.place (plan.acts.map _ ++ [_]) other = _
    rw [Act.place_append (by rwa [Act.owners_map_extend]), Act.place_extend]
  refine
    { reads := stands.reads.change rfl rfl rfl rfl (Page.rest_wrap wrapped)
      describes := ⟨_, describes.precede follows.ordered follows.bounded
        (follows.unresolved plan.count (Nat.le_refl _)) mem ends cursor⟩
      count := ?_
      keeps := ?_ }
  · show (bench.held.set marker .gone ++ [_]).length = plan.count + 1
    rw [List.length_append, List.length_set, stands.count]
    rfl
  · intro other record' found' live'
    change (draft.records.modify marker _ ++ [_])[other]? = some record' at found'
    show Keeps lexed (plan.precede marker).acts (bench.held.set marker .gone ++ [_]) other record'
    rw [Follows.getElem?_concat, List.length_modify, follows.count] at found'
    by_cases newest : other = plan.count
    · rw [if_pos newest] at found'
      cases found'
      subst newest
      refine ⟨cursor, inside, rest, ?_⟩
      have last : Act.place (plan.precede marker).acts plan.count = bench.builder.events.size := by
        show Act.place (plan.acts.map _ ++ [_]) plan.count = _
        rw [Act.place_last (by rwa [Act.owners_map_extend]) rfl, List.length_map, describes.size]
      rw [Follows.getElem?_concat, List.length_set, if_pos stands.count.symm]
      simp only [Record.held, last, place root]
      rfl
    · rw [if_neg newest] at found'
      obtain ⟨ne, found'⟩ := live_of_modify found' live'
      obtain ⟨own', root', -⟩ := follows.owned found' live'
      refine (stands.keeps other record' found' live').change (place own') (place root') ?_
      rw [Follows.getElem?_concat, List.length_set, stands.count, if_neg newest,
        List.getElem?_set_ne ne]

theorem advance : Stands lexed (plan.advance draft) { draft with page := draft.page.advance }
    ⟨bench.builder.advance, bench.held⟩ := by
  have atEnd := stands.reads.atEnd
  unfold Plan.advance Builder.advance
  rw [atEnd]
  cases left : draft.page.rest with
  | nil =>
      have same : draft.page.advance = draft.page := by simp [Page.advance, left]
      rw [same]
      exact stands
  | cons token rest =>
      have next : draft.page.advance.rest = rest := by simp [Page.advance, left, Page.add]
      rw [left] at atEnd
      have inside : bench.builder.cursor < bench.builder.significant.size := by
        simpa [Builder.atEnd] using atEnd
      refine stands.push follows (rfl : Act.token.owner? = none) (fun _ _ _ => rfl) rfl rfl ?_
      refine ⟨stands.reads.tokens, stands.reads.messages, stands.reads.significant, inside, ?_⟩
      show _ = bench.builder.significant.toList.drop (bench.builder.cursor + 1)
      rw [next, ← List.tail_drop, ← stands.reads.rest, left]
      rfl

theorem missing (message : String) : Stands lexed (plan.push (.missing message))
    { draft with page := draft.page.add (.missing message) }
    ⟨bench.builder.missing message, bench.held⟩ := by
  refine stands.push follows (rfl : (Act.missing message).owner? = none) (fun _ _ _ => rfl) rfl rfl ?_
  exact stands.reads.change rfl rfl rfl rfl rfl

include empty

theorem advanceError {draft' : Draft} {message : String}
    (stepped : draft.step (.advanceError message) = some draft') :
    ∃ bench', bench.step (.advanceError message) = some bench' ∧
      Stands lexed (plan.step draft (.advanceError message)) draft' bench' := by
  unfold Draft.step at stepped
  unfold Bench.step Plan.step Builder.advanceError
  have atEnd := stands.reads.atEnd
  dsimp only at stepped ⊢
  rw [atEnd]
  split at stepped
  · rename_i none
    cases stepped
    rw [if_pos none, if_pos none, if_pos none, List.append_nil]
    exact ⟨_, rfl, stands.missing follows message⟩
  · rename_i more
    rw [if_neg more, if_neg more, if_neg more]
    obtain ⟨completed, done, kept⟩ := Option.bind_eq_some_iff.1 stepped
    have advanced := (stands.mark follows).advance (follows.mark empty)
    have follows' := (follows.mark empty).advance empty
    have pushed : plan.mark.advance draft.mark = plan.mark.push .token := if_neg more
    rw [pushed] at advanced follows'
    rw [follows.count] at done kept
    obtain ⟨held, is, completed'⟩ := advanced.complete follows' done (.error message)
    obtain ⟨-, -, kept'⟩ := completed'.keep kept
    have last {held : Held} : (bench.held ++ [held])[plan.count]? = some held := by
      rw [Follows.getElem?_concat, if_pos stands.count.symm]
    have marker : held = bench.builder.mark.1 := by
      rw [Bench.marker?, last] at is
      exact (Option.some.inj is).symm
    subst marker
    refine ⟨_, rfl, ?_⟩
    have spent (held held' : Held) : ((bench.held ++ [held]).set plan.count held').set plan.count
        .gone = bench.held ++ [.gone] := by
      rw [List.set_set, List.set_append_right _ _ (Nat.le_of_eq stands.count), stands.count,
        Nat.sub_self]
      rfl
    rw [spent] at kept'
    exact kept'

/-- What is allowed on the draft can be done on the bench. -/
theorem step {draft' : Draft} {operation : Operation}
    (stepped : draft.step operation = some draft') :
    ∃ bench', bench.step operation = some bench' ∧
      Stands lexed (plan.step draft operation) draft' bench' := by
  cases operation with
  | mark =>
      cases stepped
      exact ⟨_, rfl, stands.mark follows⟩
  | done marker kind =>
      obtain ⟨held, is, next⟩ := stands.complete follows stepped (.node kind)
      exact ⟨_, by simp only [Bench.step, is]; rfl, next⟩
  | error marker message =>
      obtain ⟨held, is, next⟩ := stands.complete follows stepped (.error message)
      exact ⟨_, by simp only [Bench.step, is]; rfl, next⟩
  | drop marker =>
      obtain ⟨held, is, next⟩ := stands.drop follows stepped
      exact ⟨_, by simp only [Bench.step, is]; rfl, next⟩
  | rollback marker => exact stands.rollback follows stepped
  | precede marker =>
      obtain ⟨held, is, next⟩ := stands.precede follows stepped
      exact ⟨_, by simp only [Bench.step, is]; rfl, next⟩
  | keep marker =>
      obtain ⟨held, is, next⟩ := stands.keep stepped
      exact ⟨_, by simp only [Bench.step, is]; rfl, next⟩
  | advance =>
      cases stepped
      exact ⟨_, rfl, stands.advance follows⟩
  | missing message =>
      cases stepped
      exact ⟨_, rfl, stands.missing follows message⟩
  | advanceError message => exact stands.advanceError follows empty stepped

end Stands

/-- What is allowed on the draft, one thing after another, can be done on the bench. -/
theorem stands_run {lexed : Lexed} {start : Page} (empty : start.frames = [] ∧ start.items = [])
    {operations : List Operation} {plan : Plan} {draft draft' : Draft} {bench : Bench}
    (stands : Stands lexed plan draft bench) (follows : Follows start plan draft)
    (ran : draft.run operations = some draft') : ∃ plan' bench',
      bench.run operations = some bench' ∧ Stands lexed plan' draft' bench' ∧
        Follows start plan' draft' := by
  induction operations generalizing plan draft bench with
  | nil =>
      cases ran
      exact ⟨plan, bench, rfl, stands, follows⟩
  | cons operation operations ih =>
      obtain ⟨next, stepped, ran⟩ := Option.bind_eq_some_iff.1 ran
      obtain ⟨bench', stepped', stands'⟩ := stands.step follows empty.1 stepped
      obtain ⟨plan', last, ran', both⟩ := ih stands' (follows.step empty stepped) ran
      exact ⟨plan', last, by rw [Bench.run, stepped']; exact ran', both⟩

/-- At first there are no events, and no token has been passed. -/
theorem stands_ofLexed (lexed : Lexed) :
    Stands lexed {} (Draft.ofLexed lexed) ⟨Builder.ofLexed lexed, []⟩ where
  reads := ⟨rfl, rfl, rfl, Nat.zero_le _, rfl⟩
  describes := ⟨fun _ => none, ⟨⟨fun _ _ => iff_of_false nofun (by simp [Builder.ofLexed]), .nil,
    nofun⟩, rfl, nofun⟩⟩
  count := rfl
  keeps := fun marker record found => by simp [Draft.ofLexed] at found

end StarlarkSyntax
