import StarlarkSyntax.Proofs.Builder.Since
/-!
# Work that is taken back exactly

Taking everything back to a place may have to undo more than was recorded after it. A wrapper around a node
that had been finished before changes an event before that place, and only the list of links tells of it.

What taking back to a fixed place makes of a builder is not changed by any operation after that place
(`rollbackTo_change`, `rollbackTo_truncate`, `rollbackTo_precede`). So once it gives back what there was
before, it goes on to do so (`Builder.Regains`). Wrapping is where care is needed. Undoing a link removes the
wrapper of an event, so the event must have had none before: it was the outermost, and the search for it does
not stop early because a wrapper always comes after what it wraps (`wrapper?_outermost`).
-/

set_option autoImplicit false

namespace StarlarkSyntax

theorem Event.withWrapper_none {event : Event} (free : event.wrapper? = none) :
    event.withWrapper none = event := by
  cases event with
  | start completion wrapper? =>
      cases free
      rfl
  | finish | token | error message => rfl

namespace Builder

/-- The cursor is not beyond the tokens, every wrapper comes after what it wraps, and the links tell of all
wrappers, those of newer ones first. No more is asked of a builder by the rules that are followed with it. -/
def WellFormed (builder : Builder) : Prop :=
  builder.Since builder

theorem Since.wellFormed {base builder : Builder} (since : base.Since builder) : builder.WellFormed :=
  since.self

/-! ## What no operation changes -/

theorem shrink_congr {events events' : Array Event} {start : Nat}
    (same : ∀ i < start, events'[i]? = events[i]?) : events'.shrink start = events.shrink start := by
  refine Array.ext_getElem? fun i => ?_
  simp only [← Array.getElem?_toList, Array.toList_shrink, List.getElem?_take]
  split
  · rename_i before
    simpa using same i before
  · rfl

theorem shrink_modify (events : Array Event) (start i : Nat) (change : Event → Event) :
    (events.modify i change).shrink start = (events.shrink start).modify i change := by
  refine Array.ext_getElem? fun j => ?_
  rw [Array.getElem?_modify]
  simp only [← Array.getElem?_toList, Array.toList_shrink, List.getElem?_take]
  simp only [Array.getElem?_toList, Array.getElem?_modify]
  split <;> split <;> rfl

variable {builder : Builder} {start cursor : Nat}

/-- It does not matter what becomes of the events from there on. -/
theorem rollbackTo_change {events : Array Event} (same : ∀ i < start, events[i]? = builder.events[i]?) :
    { builder with events }.rollbackTo start cursor = builder.rollbackTo start cursor := by
  simp only [rollbackTo, truncate, shrink_congr same]

theorem rollbackTo_push (event : Event) (inside : start ≤ builder.events.size) :
    (builder.push event).rollbackTo start cursor = builder.rollbackTo start cursor :=
  rollbackTo_change fun i before => by rw [Array.getElem?_push, if_neg (by omega)]

theorem rollbackTo_complete {position : Nat} (completion : Completion) (new : start ≤ position)
    (inside : start ≤ builder.events.size) :
    (builder.complete position completion).rollbackTo start cursor = builder.rollbackTo start cursor :=
  rollbackTo_change fun i before => by
    rw [Array.getElem?_push, Array.size_modify, if_neg (by omega), Array.getElem?_modify,
      if_neg (by omega)]

theorem unlink_unlink {length : Nat} (later : start ≤ length) (links : List (Nat × Nat))
    (events : Array Event) :
    unlink start (unlink length links events).1 ((unlink length links events).2.shrink start) =
      unlink start links (events.shrink start) := by
  induction links generalizing events with
  | nil => rfl
  | cons link links ih =>
      obtain ⟨wrapped, wrapper⟩ := link
      by_cases kept : wrapper < length
      · simp only [unlink, if_pos kept]
      · rw [unlink, if_neg kept, ih, shrink_modify, unlink, if_neg (by omega)]

theorem rollbackTo_truncate {length : Nat} (later : start ≤ length) :
    (builder.truncate length).rollbackTo start cursor = builder.rollbackTo start cursor := by
  have cut : (builder.events.shrink length).shrink start = builder.events.shrink start :=
    shrink_congr fun i before => by
      simp only [← Array.getElem?_toList, Array.toList_shrink, List.getElem?_take]
      rw [if_pos (by omega)]
  have both := unlink_unlink later builder.links (builder.events.shrink length)
  rw [cut] at both
  simp only [rollbackTo, truncate, both]

theorem rollbackTo_drop {marker : Marker} (new : start ≤ marker.position) :
    (builder.drop marker).rollbackTo start cursor = builder.rollbackTo start cursor := by
  unfold drop
  split
  · exact rollbackTo_truncate new
  · exact rollbackTo_change fun i before => Array.getElem?_setIfInBounds_ne (by omega)

/-- What is outermost has no wrapper: there are fewer wrappers to follow than events. -/
theorem wrapper?_outermost {events : Array Event} {bound : Nat}
    (ordered : ∀ i wrapper : Nat, events[i]?.bind Event.wrapper? = some wrapper →
      i < wrapper ∧ wrapper < bound) (fuel : Nat) {index : Nat} (inside : index < bound)
    (enough : bound ≤ index + fuel) : events[outermost events fuel index]?.bind Event.wrapper? = none := by
  induction fuel generalizing index with
  | zero => omega
  | succ fuel ih =>
      unfold outermost
      split
      · rename_i wrapper found
        obtain ⟨later, bounded⟩ := ordered index wrapper found
        exact ih bounded (by omega)
      · assumption

/-- A wrapper is undone also if what it wraps was finished before. -/
theorem rollbackTo_precede {completed : Completed} (sound : builder.WellFormed)
    (inside : start ≤ builder.events.size) (begun : completed.start < builder.events.size) :
    (builder.precede completed).2.rollbackTo start cursor = builder.rollbackTo start cursor := by
  have marked := sound.mark
  have free := wrapper?_outermost (fun i wrapper wraps =>
    ⟨marked.forward i wrapper wraps, sound.bounded _ (marked.recorded i wrapper wraps)⟩)
    builder.mark.2.events.size begun (by simp only [mark, push, Array.size_push]; omega)
  generalize wrapped : outermost builder.mark.2.events builder.mark.2.events.size completed.start = last at free
  have undone : ((builder.mark.2.events.modify last (Event.withWrapper (some builder.events.size))).shrink
      start).modify last (Event.withWrapper none) = builder.events.shrink start := by
    rw [← shrink_modify]
    refine shrink_congr fun i before => ?_
    rw [Array.getElem?_modify, Array.getElem?_modify]
    have old : builder.mark.2.events[i]? = builder.events[i]? := by
      simp only [mark, push]
      rw [Array.getElem?_push, if_neg (by omega)]
    split
    · rename_i same
      subst same
      rw [old] at free ⊢
      cases found : builder.events[last]? with
      | none => rfl
      | some event =>
          rw [found] at free
          simp [Event.withWrapper_none free]
    · exact old
  have links : (builder.precede completed).2.links = (last, builder.events.size) :: builder.links := by
    rw [← wrapped]
    rfl
  have events : (builder.precede completed).2.events =
      builder.mark.2.events.modify last (Event.withWrapper (some builder.events.size)) := by
    rw [← wrapped]
    rfl
  simp only [rollbackTo, truncate, links, events, unlink, if_neg (Nat.not_lt.2 inside), undone]
  rfl

/-- There is more than at `base`, and taking everything back to there gives `base` again. How deep the
nesting is, is not taken back. -/
structure Regains (base builder : Builder) : Prop where
  size : base.events.size < builder.events.size
  back : builder.rollbackTo base.events.size base.cursor = { base with depth := builder.depth }

namespace Regains

variable {base builder : Builder}

theorem mark (sound : base.WellFormed) : base.Regains base.mark.2 where
  size := by
    simp only [Builder.mark, Builder.push, Array.size_push]
    omega
  back := (rollbackTo_push _ (Nat.le_refl _)).trans (sound.rollbackTo_eq sound.inside)

variable (regains : base.Regains builder)
include regains

/-- It goes on with one more event. -/
theorem push (event : Event) : base.Regains (builder.push event) where
  size := by
    have := regains.size
    simp only [Builder.push, Array.size_push]
    omega
  back := (rollbackTo_push event (Nat.le_of_lt regains.size)).trans regains.back

theorem atDepth (depth : Nat) : base.Regains { builder with depth } where
  size := regains.size
  back := congrArg (fun back : Builder => { back with depth }) regains.back

theorem advance : base.Regains builder.advance := by
  unfold Builder.advance
  split
  · exact regains
  · have pushed := regains.push .token
    exact { size := pushed.size, back := pushed.back }

theorem missing (message : String) : base.Regains (builder.missing message) :=
  regains.push _

theorem matches? (kind : Kind) : base.Regains (builder.matches? kind).2 := by
  unfold Builder.matches?
  split
  · exact regains.advance
  · exact regains

theorem expect (kind : Kind) (message : String) : base.Regains (builder.expect kind message).2 := by
  unfold Builder.expect
  split
  · exact regains.advance
  · exact regains.missing message

theorem complete {position : Nat} (new : base.events.size ≤ position) (completion : Completion) :
    base.Regains (builder.complete position completion) where
  size := by
    have := regains.size
    simp only [Builder.complete, Array.size_push, Array.size_modify]
    omega
  back := (rollbackTo_complete completion new (Nat.le_of_lt regains.size)).trans regains.back

theorem drop {marker : Marker} (new : base.events.size < marker.position) :
    base.Regains (builder.drop marker) where
  size := by
    have := regains.size
    unfold Builder.drop
    split
    · rw [size_truncate]
      omega
    · rw [Array.size_setIfInBounds]
      omega
  back := by
    have depth : (builder.drop marker).depth = builder.depth := by
      unfold Builder.drop
      split <;> rfl
    rw [rollbackTo_drop (Nat.le_of_lt new), regains.back, depth]

theorem rollbackTo {start : Nat} (new : base.events.size < start) (cursor : Nat) :
    base.Regains (builder.rollbackTo start cursor) where
  size := by
    have := regains.size
    change _ < (builder.truncate start).events.size
    rw [size_truncate]
    omega
  back := (rollbackTo_truncate (Nat.le_of_lt new)).trans regains.back

theorem precede {completed : Completed} (sound : builder.WellFormed)
    (begun : completed.start < builder.events.size) : base.Regains (builder.precede completed).2 where
  size := by
    have := regains.size
    simp only [Builder.precede, Builder.mark, Builder.push, Array.size_modify, Array.size_push]
    omega
  back := (rollbackTo_precede sound (Nat.le_of_lt regains.size) begun).trans regains.back

theorem enter : base.Regains builder.enter.2 := by
  unfold Builder.enter
  split
  · exact regains
  · exact regains.atDepth _

end Regains
end Builder

end StarlarkSyntax
