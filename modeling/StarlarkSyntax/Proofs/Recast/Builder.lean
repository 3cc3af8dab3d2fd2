import Mathlib.Data.List.Forall2
import StarlarkSyntax.Proofs.Builder.Rollback
/-!
# Builders that describe the same, but for what names have become

The same tokens may be read as a value and as something that is assigned to. What is described then is the
same but for some names, which have become targets instead of references (`Event.Recast`). The two readings
need not begin with the same builder: what was described before does not matter, it only moves the places of
the events (`Across`).

`Builder.Alike base base' level value target` says that this is so of two builders that come of `base` and
`base'`. No operation of a builder asks what a node has become. So each of them keeps builders alike, if it is
given markers of the same places (`Marker.Alike`).
-/

set_option autoImplicit false

namespace StarlarkSyntax

/-- What a beginning has turned out to be in a value, and in a target. -/
inductive Completion.Recast : Completion → Completion → Prop
  | same (completion : Completion) : Recast completion completion
  | name : Recast (.node .referenceExpression) (.node .targetExpression)

/-- An event in a value, and in a target. The index of a wrapper is that of the same event in both. -/
inductive Event.Recast (across : Nat → Nat → Prop) : Event → Event → Prop
  | start {completion completion' : Completion} {wrapper? wrapper?' : Option Nat}
      (completions : completion.Recast completion') (wrappers : Option.Rel across wrapper? wrapper?') :
      Recast across (.start completion wrapper?) (.start completion' wrapper?')
  | finish : Recast across .finish .finish
  | token : Recast across .token .token
  | error (message : String) : Recast across (.error message) (.error message)

namespace Event

variable {across : Nat → Nat → Prop} {event event' : Event}

theorem Recast.of_plain (plain : event.wrapper? = none) : event.Recast across event := by
  cases event with
  | start completion wrapper? =>
      cases plain
      exact .start (.same _) .none
  | finish => exact .finish
  | token => exact .token
  | error message => exact .error message

theorem Recast.wrappers (recast : event.Recast across event') : Option.Rel across event.wrapper? event'.wrapper? := by
  cases recast with
  | start _ wrappers => exact wrappers
  | finish | token | error => exact .none

theorem Recast.withWrapper (recast : event.Recast across event') {wrapper? wrapper?' : Option Nat}
    (wrappers : Option.Rel across wrapper? wrapper?') :
    (event.withWrapper wrapper?).Recast across (event'.withWrapper wrapper?') := by
  cases recast with
  | start completions _ => exact .start completions wrappers
  | finish => exact .finish
  | token => exact .token
  | error message => exact .error message

theorem Recast.complete (recast : event.Recast across event') {completion completion' : Completion}
    (completions : completion.Recast completion') :
    (event.complete completion).Recast across (event'.complete completion') := by
  cases recast with
  | start _ wrappers => exact .start completions wrappers
  | finish => exact .finish
  | token => exact .token
  | error message => exact .error message

end Event

theorem rel_map {α β : Type} {relation : α → α → Prop} {relation' : β → β → Prop}
    {option? option?' : Option α} (rel : Option.Rel relation option? option?') {change change' : α → β}
    (changes : ∀ a a', relation a a' → relation' (change a) (change' a')) :
    Option.Rel relation' (option?.map change) (option?'.map change') := by
  cases rel with
  | some related => exact .some (changes _ _ related)
  | none => exact .none

namespace Builder

/-- The same place among the events that were described since two builders. -/
def Across (base base' : Builder) (i i' : Nat) : Prop :=
  base.events.size ≤ i ∧ i + base'.events.size = i' + base.events.size

namespace Across

variable {base base' : Builder} {i i' j j' : Nat}

theorem lt_iff (here : Across base base' i i') (there : Across base base' j j') : i < j ↔ i' < j' := by
  have := here.2
  have := there.2
  omega

theorem le_iff (here : Across base base' i i') (there : Across base base' j j') : i ≤ j ↔ i' ≤ j' := by
  have := here.2
  have := there.2
  omega

theorem eq_iff (here : Across base base' i i') (there : Across base base' j j') : i = j ↔ i' = j' := by
  have := here.2
  have := there.2
  omega

theorem succ (here : Across base base' i i') : Across base base' (i + 1) (i' + 1) :=
  ⟨Nat.le_succ_of_le here.1, by have := here.2; omega⟩

/-- It comes after what the second builder began with. -/
theorem since' (here : Across base base' i i') : base'.events.size ≤ i' := by
  obtain ⟨since, same⟩ := here
  omega

end Across

/-! ## Events side by side -/

/-- What was described since two builders is the same but for names. -/
structure Tally (base base' : Builder) (events events' : Array Event) : Prop where
  size : Across base base' events.size events'.size
  recast : ∀ i i', Across base base' i i' → Option.Rel (Event.Recast (Across base base')) events[i]? events'[i']?

/-- What has no wrapper is the last one itself. -/
theorem outermost_of_none {events : Array Event} {i : Nat} (last : events[i]?.bind Event.wrapper? = none)
    (fuel : Nat) : outermost events fuel i = i := by
  cases fuel with
  | zero => rfl
  | succ fuel => simp only [outermost, last]

namespace Tally

variable {base base' : Builder} {events events' : Array Event} (tally : Tally base base' events events')
include tally

theorem push {event event' : Event} (recast : event.Recast (Across base base') event') :
    Tally base base' (events.push event) (events'.push event') where
  size := by
    simp only [Array.size_push]
    exact tally.size.succ
  recast i i' here := by
    simp only [Array.getElem?_push, here.eq_iff tally.size]
    split
    · exact .some recast
    · exact tally.recast i i' here

theorem modify {j j' : Nat} (there : Across base base' j j') {change change' : Event → Event}
    (changes : ∀ event event' : Event, event.Recast (Across base base') event' →
      (change event).Recast (Across base base') (change' event')) :
    Tally base base' (events.modify j change) (events'.modify j' change') where
  size := by
    simp only [Array.size_modify]
    exact tally.size
  recast i i' here := by
    simp only [Array.getElem?_modify, there.eq_iff here]
    split
    · exact rel_map (tally.recast i i' here) changes
    · exact tally.recast i i' here

theorem set {j j' : Nat} (there : Across base base' j j') {event event' : Event}
    (recast : event.Recast (Across base base') event') :
    Tally base base' (events.setIfInBounds j event) (events'.setIfInBounds j' event') where
  size := by
    simp only [Array.size_setIfInBounds]
    exact tally.size
  recast i i' here := by
    simp only [Array.getElem?_setIfInBounds, there.eq_iff here, there.lt_iff tally.size]
    split
    · split
      · exact .some recast
      · exact .none
    · exact tally.recast i i' here

theorem wrapper? {i i' : Nat} (here : Across base base' i i') :
    Option.Rel (Across base base') (events[i]?.bind Event.wrapper?) (events'[i']?.bind Event.wrapper?) := by
  have rel := tally.recast i i' here
  generalize events[i]? = event? at rel
  generalize events'[i']? = event?' at rel
  cases rel with
  | some recast => exact recast.wrappers
  | none => exact .none

/-- The lists of what was described are the same but for names. -/
theorem forall₂ : List.Forall₂ (Event.Recast (Across base base')) (events.toList.drop base.events.size)
    (events'.toList.drop base'.events.size) := by
  obtain ⟨grown, same⟩ := tally.size
  refine List.forall₂_iff_get.2 ⟨by simp; omega, fun i inside inside' => ?_⟩
  have rel := tally.recast (base.events.size + i) (base'.events.size + i) ⟨Nat.le_add_right _ _, by omega⟩
  simp only [List.length_drop, Array.length_toList] at inside inside'
  rw [Array.getElem?_eq_getElem (by omega), Array.getElem?_eq_getElem (by omega)] at rel
  cases rel with
  | some recast => simpa using recast

/-- The last wrappers are at the same place. There is always a later event to follow a wrapper to, so it makes
no difference how many links are followed at most. -/
theorem outermost {bound bound' : Nat}
    (ordered : ∀ i wrapper : Nat, events[i]?.bind Event.wrapper? = some wrapper → i < wrapper ∧ wrapper < bound)
    (ordered' : ∀ i wrapper : Nat, events'[i]?.bind Event.wrapper? = some wrapper → i < wrapper ∧ wrapper < bound')
    (fuel fuel' : Nat) {i i' : Nat} (here : Across base base' i i') (enough : bound ≤ fuel + i)
    (enough' : bound' ≤ fuel' + i') :
    Across base base' (outermost events fuel i) (outermost events' fuel' i') := by
  have rel := tally.wrapper? here
  cases next : events[i]?.bind Event.wrapper? with
  | none =>
      rw [next] at rel
      cases next' : events'[i']?.bind Event.wrapper? with
      | none =>
          rw [outermost_of_none next, outermost_of_none next']
          exact here
      | some wrapper' =>
          rw [next'] at rel
          cases rel
  | some wrapper =>
      rw [next] at rel
      cases next' : events'[i']?.bind Event.wrapper? with
      | none =>
          rw [next'] at rel
          cases rel
      | some wrapper' =>
          rw [next'] at rel
          cases rel with
          | some there =>
              have later := ordered i wrapper next
              have later' := ordered' i' wrapper' next'
              obtain ⟨fuel, rfl⟩ : ∃ less, fuel = less + 1 := ⟨fuel - 1, by omega⟩
              obtain ⟨fuel', rfl⟩ : ∃ less, fuel' = less + 1 := ⟨fuel' - 1, by omega⟩
              simp only [Builder.outermost, next, next']
              exact outermost ordered ordered' fuel fuel' there (by omega) (by omega)
termination_by fuel

end Tally

/-! ## Builders side by side -/

/-- Links between the same events. -/
def AcrossLinks (base base' : Builder) (link link' : Nat × Nat) : Prop :=
  Across base base' link.1 link'.1 ∧ Across base base' link.2 link'.2

/-- Two builders that come of others see the same tokens from the same cursor on, are nested this deep, and
have described the same but for names. -/
structure Alike (base base' : Builder) (level : Nat) (value target : Builder) : Prop where
  since : { base with depth := level }.Since value
  since' : { base' with depth := level }.Since target
  significant : target.significant = value.significant
  cursor : target.cursor = value.cursor
  tally : Tally base base' value.events target.events
  links : ∃ more more' : List (Nat × Nat), value.links = more ++ base.links ∧ target.links = more' ++ base'.links ∧
    List.Forall₂ (AcrossLinks base base') more more'

end Builder

/-- Markers of the same place. -/
structure Marker.Alike (base base' : Builder) (marker marker' : Marker) : Prop where
  position : Builder.Across base base' marker.position marker'.position
  start : Builder.Across base base' marker.start marker'.start
  cursor : marker'.cursor = marker.cursor
  inside : marker.cursor ≤ base.significant.size

namespace Builder

/-- Links whose wrappers are older than a place are not cut off there. -/
theorem Since.cut_links {base builder : Builder} (since : base.Since builder) {more : List (Nat × Nat)} {length : Nat}
    (new : base.events.size ≤ length) :
    (more ++ base.links).takeWhile (length ≤ ·.2) = more.takeWhile (length ≤ ·.2) ∧
      (more ++ base.links).dropWhile (length ≤ ·.2) = more.dropWhile (length ≤ ·.2) ++ base.links := by
  induction more with
  | nil =>
      cases links : base.links with
      | nil => exact ⟨rfl, rfl⟩
      | cons link links =>
          have older := since.older link (by rw [links]; exact List.mem_cons_self)
          have kept : ¬length ≤ link.2 := by omega
          simp [kept]
  | cons link more ih =>
      simp only [List.cons_append, List.takeWhile_cons, List.dropWhile_cons, ih]
      split <;> simp

section

variable {base base' : Builder} {more more' : List (Nat × Nat)} {length length' : Nat}

/-- The links that are cut off at the same place are from the same events. -/
theorem any_takeWhile_links (links : List.Forall₂ (AcrossLinks base base') more more')
    (here : Across base base' length length') {i i' : Nat} (there : Across base base' i i') :
    (more.takeWhile (length ≤ ·.2)).any (·.1 == i) = (more'.takeWhile (length' ≤ ·.2)).any (·.1 == i') := by
  induction links with
  | nil => rfl
  | @cons link link' _ _ across _ ih =>
      have same : (link.1 == i) = (link'.1 == i') := by
        rw [Bool.eq_iff_iff, beq_iff_eq, beq_iff_eq]
        exact across.1.eq_iff there
      simp only [List.takeWhile_cons, here.le_iff across.2]
      split
      · rw [List.any_cons, List.any_cons, same, ih]
      · rfl

theorem dropWhile_links (links : List.Forall₂ (AcrossLinks base base') more more')
    (here : Across base base' length length') :
    List.Forall₂ (AcrossLinks base base') (more.dropWhile (length ≤ ·.2)) (more'.dropWhile (length' ≤ ·.2)) := by
  induction links with
  | nil => exact .nil
  | @cons link link' _ _ across rest ih =>
      simp only [List.dropWhile_cons, here.le_iff across.2]
      split
      · exact ih
      · exact .cons across rest

end

namespace Alike

variable {base base' : Builder} {level : Nat} {value target : Builder}

/-- Two readings begin where the same tokens come next, nested as deep. -/
theorem begin (wellFormed : base.WellFormed) (wellFormed' : base'.WellFormed)
    (significant : base'.significant = base.significant) (cursor : base'.cursor = base.cursor)
    (depth : base'.depth = base.depth) : Alike base base' base.depth base base' where
  since := wellFormed
  since' := depth ▸ wellFormed'
  significant := significant
  cursor := cursor
  tally := by
    refine ⟨⟨Nat.le_refl _, Nat.add_comm _ _⟩, fun i i' here => ?_⟩
    rw [Array.getElem?_eq_none here.1, Array.getElem?_eq_none here.since']
    exact .none
  links := ⟨[], [], rfl, rfl, .nil⟩

section

variable (alike : Alike base base' level value target)
include alike

theorem nth? : target.nth? = value.nth? := by
  funext n
  simp only [Builder.nth?, nthToken?, alike.significant, alike.cursor]

theorem current? : target.current? = value.current? :=
  congrFun alike.nth? 0

theorem isAt (kind : Kind) : target.isAt kind = value.isAt kind := by
  rw [Builder.isAt, alike.current?, Builder.isAt]

theorem isAtAny (kinds : List Kind) : target.isAtAny kinds = value.isAtAny kinds := by
  rw [Builder.isAtAny, alike.current?, Builder.isAtAny]

theorem atEnd : target.atEnd = value.atEnd := by
  rw [Builder.atEnd, alike.significant, alike.cursor, Builder.atEnd]

theorem push (event : Event) (plain : event.wrapper? = none) :
    Alike base base' level (value.push event) (target.push event) :=
  { alike with
    since := alike.since.push plain
    since' := alike.since'.push plain
    tally := alike.tally.push (.of_plain plain) }

theorem advance : Alike base base' level value.advance target.advance := by
  have since := alike.since.advance
  have since' := alike.since'.advance
  unfold Builder.advance at since since' ⊢
  rw [alike.atEnd] at since' ⊢
  split
  · exact alike
  · rename_i more
    rw [if_neg more] at since since'
    have pushed := alike.push .token rfl
    exact { pushed with since, since', cursor := congrArg (· + 1) alike.cursor }

theorem missing (message : String) : Alike base base' level (value.missing message) (target.missing message) :=
  alike.push _ rfl

theorem mark : Alike base base' level value.mark.2 target.mark.2 :=
  alike.push _ rfl

theorem marker : Marker.Alike base base' value.mark.1 target.mark.1 :=
  ⟨alike.tally.size, alike.tally.size, alike.cursor, alike.since.inside⟩

theorem matches? (kind : Kind) : Alike base base' level (value.matches? kind).2 (target.matches? kind).2 := by
  unfold Builder.matches?
  rw [alike.isAt]
  split
  · exact alike.advance
  · exact alike

theorem expect (kind : Kind) (message : String) :
    Alike base base' level (value.expect kind message).2 (target.expect kind message).2 := by
  unfold Builder.expect
  rw [alike.isAt]
  split
  · exact alike.advance
  · exact alike.missing message

/-- A name may become a reference here and a target there. -/
theorem complete {i i' : Nat} (here : Across base base' i i') {completion completion' : Completion}
    (completions : completion.Recast completion') :
    Alike base base' level (value.complete i completion) (target.complete i' completion') :=
  { alike with
    since := alike.since.complete completion here.1
    since' := alike.since'.complete completion' here.since'
    tally := (alike.tally.modify here fun _ _ recast => recast.complete completions).push .finish }

theorem truncate {length length' : Nat} (here : Across base base' length length') :
    Alike base base' level (value.truncate length) (target.truncate length') := by
  obtain ⟨more, more', links, links', same⟩ := alike.links
  refine { alike with
    since := alike.since.truncate here.1, since' := alike.since'.truncate here.since', tally := ⟨?_, ?_⟩
    links := ⟨_, _, ?_, ?_, dropWhile_links same here⟩ }
  · obtain ⟨new, same⟩ := here
    obtain ⟨grown, same'⟩ := alike.tally.size
    simp only [size_truncate]
    exact ⟨by omega, by omega⟩
  · intro i i' there
    simp only [getElem?_truncate, links, links', (alike.since.cut_links here.1).1,
      (alike.since'.cut_links here.since').1, any_takeWhile_links same here there, there.lt_iff here]
    split
    · split
      · exact rel_map (alike.tally.recast i i' there) fun _ _ recast => recast.withWrapper .none
      · exact alike.tally.recast i i' there
    · exact .none
  · rw [links_truncate, links]
    exact (alike.since.cut_links here.1).2
  · rw [links_truncate, links']
    exact (alike.since'.cut_links here.since').2

theorem rollback {marker marker' : Marker} (markers : marker.Alike base base' marker') :
    Alike base base' level (value.rollback marker) (target.rollback marker') := by
  have inside : marker'.cursor ≤ base'.significant.size := by
    have same : base'.significant = base.significant :=
      alike.since'.significant.symm.trans (alike.significant.trans alike.since.significant)
    rw [markers.cursor, same]
    exact markers.inside
  exact { alike.truncate markers.start with
    since := alike.since.rollbackTo markers.start.1 markers.inside
    since' := alike.since'.rollbackTo markers.start.since' inside
    cursor := markers.cursor }

theorem drop {marker marker' : Marker} (markers : marker.Alike base base' marker') :
    Alike base base' level (value.drop marker) (target.drop marker') := by
  have since := alike.since.drop markers.position.1
  have since' := alike.since'.drop markers.position.since'
  have last := markers.position.succ.eq_iff alike.tally.size
  unfold Builder.drop at since since' ⊢
  simp only [← last] at since' ⊢
  split
  · exact alike.truncate markers.position
  · rename_i inner
    rw [if_neg inner] at since since'
    exact { alike with since, since', tally := alike.tally.set markers.position (.of_plain rfl) }

theorem precede {completed completed' : Completed} (starts : Across base base' completed.start completed'.start)
    (begun : completed.start < value.events.size) :
    Alike base base' level (value.precede completed).2 (target.precede completed').2 := by
  have marked := alike.mark
  have begun' := (starts.lt_iff alike.tally.size).1 begun
  have wrapped := marked.tally.outermost
    (fun i wrapper found => ⟨marked.since.forward i wrapper found,
      marked.since.bounded _ (marked.since.recorded i wrapper found)⟩)
    (fun i wrapper found => ⟨marked.since'.forward i wrapper found,
      marked.since'.bounded _ (marked.since'.recorded i wrapper found)⟩)
    value.mark.2.events.size target.mark.2.events.size starts (Nat.le_add_right _ _) (Nat.le_add_right _ _)
  obtain ⟨more, more', links, links', same⟩ := alike.links
  exact { marked with
    since := alike.since.precede starts.1 begun
    since' := alike.since'.precede starts.since' begun'
    tally := marked.tally.modify wrapped fun _ _ recast => recast.withWrapper (.some alike.tally.size)
    links := ⟨_ :: more, _ :: more', congrArg (_ :: ·) links, congrArg (_ :: ·) links',
      .cons ⟨wrapped, alike.tally.size⟩ same⟩ }

theorem atOtherDepth (level' : Nat) :
    Alike base base' level' { value with depth := level' } { target with depth := level' } :=
  { alike with
    since := alike.since.atDepth level'
    since' := alike.since'.atDepth level' }

end

end Alike
end Builder
end StarlarkSyntax
