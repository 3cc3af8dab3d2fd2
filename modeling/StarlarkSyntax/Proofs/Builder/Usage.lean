import StarlarkSyntax.Proofs.Builder.Holds
import StarlarkSyntax.Proofs.Total
/-!
# Builders in any use

A builder loses no token, whatever is done with it, as long as each marker is used while it is *live*: it
has not been resolved, and nothing has been taken back to where it was made or before. The markers may be
resolved in any order, or not at all, and a node may be wrapped when it does not stand innermost any more.

A `Usage` is a builder with what it has given out, and with the cursor at which each of its events was
recorded. A step keeps it sound (`Sound.step`): there are as many tokens among the events as the cursor has
passed, and before the place of each marker as many as it had passed there. So the token that is put in for
an event is the one that the cursor was at (`leaves_run`).
-/

set_option autoImplicit false

namespace StarlarkSyntax

open Event (anyStart)

/-! ## What is done -/

/-- One thing that is done with a builder. -/
inductive Use where
  /-- One of the operations that need no look at the next token. -/
  | does (operation : Operation)
  /-- The next token is passed if it is of a kind. -/
  | takes (kind : Kind)
  /-- The next token is passed if it is of a kind, or else it is said to be missing. -/
  | expects (kind : Kind) (message : String)
  /-- A level of nesting is entered, if it is not too deep. -/
  | enters
  | exits
deriving Inhabited

/-- A builder in use, the markers that were made, and where the cursor was at each event. -/
structure Usage extends Bench where
  places : List Nat := []
deriving Inhabited

namespace Usage

/-- Changes the builder. The cursor stood where it is now when a new event is recorded. -/
def record (change : Builder → Builder) (usage : Usage) : Usage :=
  let next := change usage.builder
  { usage with
    builder := next
    places := usage.places.take next.events.size ++
      List.replicate (next.events.size - usage.builder.events.size) usage.builder.cursor }

/-- Takes everything back from a place on. The markers made there, or later, are not live any more. -/
def goBack (marker start cursor : Nat) (usage : Usage) : Usage :=
  { usage.record (·.rollbackTo start cursor) with
    held := (usage.held.set marker .gone).map (Held.before start) }

/-- Does one thing, if the marker for it is live. -/
def step (usage : Usage) : Use → Option Usage
  | .does .mark =>
    some { usage.record (·.mark.2) with held := usage.held ++ [.marker usage.builder.mark.1] }
  | .does (.done marker kind) => do
    let made ← usage.marker? marker
    some { usage.record (fun builder => (builder.done made kind).2) with
      held := usage.held.set marker (.completed (usage.builder.done made kind).1) }
  | .does (.error marker message) => do
    let made ← usage.marker? marker
    some { usage.record (fun builder => (builder.error made message).2) with
      held := usage.held.set marker (.completed (usage.builder.error made message).1) }
  | .does (.drop marker) => do
    let made ← usage.marker? marker
    some { usage.record (·.drop made) with held := usage.held.set marker .gone }
  | .does (.rollback marker) =>
    match usage.held[marker]? with
    | some (.marker made) => some (usage.goBack marker made.start made.cursor)
    | some (.completed made) => some (usage.goBack marker made.start made.cursor)
    | _ => none
  | .does (.precede marker) => do
    let made ← usage.completed? marker
    some { usage.record (fun builder => (builder.precede made).2) with
      held := usage.held.set marker .gone ++ [.marker (usage.builder.precede made).1] }
  | .does (.keep marker) => do
    let _ ← usage.completed? marker
    some { usage with held := usage.held.set marker .gone }
  | .does .advance => some (usage.record (·.advance))
  | .does (.missing message) => some (usage.record (·.missing message))
  | .does (.advanceError message) =>
    if usage.builder.atEnd then some (usage.record (·.missing message))
    else
      let made := usage.builder.mark.1
      let usage := (usage.record (·.mark.2)).record (·.advance)
      let usage := usage.record (fun builder => (builder.error made message).2)
      some { usage with held := usage.held ++ [.gone] }
  | .takes kind => some (usage.record fun builder => (builder.matches? kind).2)
  | .expects kind message => some (usage.record fun builder => (builder.expect kind message).2)
  | .enters => some (usage.record fun builder => builder.enter.2)
  | .exits => some (usage.record (·.exit))

/-- Does several things one after another. -/
def run : List Use → Usage → Option Usage
  | [], usage => some usage
  | use :: uses, usage => (usage.step use).bind (run uses)

/-- A builder at the start of a text, with which nothing has been done. -/
def ofLexed (lexed : Lexed) : Usage := { builder := .ofLexed lexed }

/-- The builder is changed just as on a bench. -/
theorem builder_step {usage next : Usage} {operation : Operation}
    (does : usage.step (.does operation) = some next) :
    ∃ bench, usage.toBench.step operation = some bench ∧ bench.builder = next.builder := by
  cases operation with
  | mark | advance | missing message =>
      cases does
      exact ⟨_, rfl, rfl⟩
  | done marker kind | error marker message | drop marker | precede marker | keep marker =>
      obtain ⟨made, found, does⟩ := Option.bind_eq_some_iff.1 does
      cases does
      exact ⟨_, Option.bind_eq_some_iff.2 ⟨made, found, rfl⟩, rfl⟩
  | rollback marker =>
      cases found : usage.held[marker]? with
      | none => simp [step, found] at does
      | some held =>
          cases held with
          | marker made | completed made =>
              simp only [step, found, Option.some.injEq] at does
              subst does
              refine ⟨⟨usage.builder.rollbackTo made.start made.cursor, usage.held.set marker .gone⟩, ?_, rfl⟩
              simp only [Bench.step, found]
              rfl
          | gone => simp [step, found] at does
  | advanceError message =>
      dsimp only [step] at does
      refine ⟨_, rfl, ?_⟩
      unfold Builder.advanceError
      split at does <;> rename_i here <;> cases does
      · rw [if_pos here]
        rfl
      · rw [if_neg here]
        rfl

end Usage

theorem Bench.held_of_marker? {bench : Bench} {n : Nat} {made : Marker}
    (found : bench.marker? n = some made) : bench.held[n]? = some (.marker made) := by
  unfold marker? at found
  split at found
  · rename_i held
    cases found
    exact held
  · contradiction

theorem Bench.held_of_completed? {bench : Bench} {n : Nat} {made : Completed}
    (found : bench.completed? n = some made) : bench.held[n]? = some (.completed made) := by
  unfold completed? at found
  split at found
  · rename_i held
    cases found
    exact held
  · contradiction

namespace Usage

/-! ## What stays true of the builder -/

/-- There is a place for each event, and the cursor has passed as many tokens as there are events for
them, now and where each of these was recorded. -/
structure Tracks (builder : Builder) (places : List Nat) : Prop where
  cursor : builder.trail.count .token = builder.cursor
  length : places.length = builder.trail.length
  places : ∀ i, builder.trail[i]? = some .token → places[i]? = some ((builder.trail.take i).count .token)

namespace Tracks

variable {usage : Usage} {change : Builder → Builder}

theorem same (tracks : Tracks usage.builder usage.places) (trail : (change usage.builder).trail = usage.builder.trail)
    (cursor : (change usage.builder).cursor = usage.builder.cursor) :
    Tracks (usage.record change).builder (usage.record change).places := by
  have size := congrArg List.length trail
  rw [Builder.length_trail, Builder.length_trail] at size
  have places : (usage.record change).places = usage.places := by
    simp [record, size, ← Builder.length_trail, ← tracks.length]
  refine ⟨?_, ?_, ?_⟩
  · exact (congrArg _ trail).trans (tracks.cursor.trans cursor.symm)
  · rw [places]
    exact tracks.length.trans (congrArg _ trail.symm)
  · rw [places]
    exact trail.symm ▸ tracks.places

/-- An event is recorded. -/
theorem grow (tracks : Tracks usage.builder usage.places) {event : Event}
    (trail : (change usage.builder).trail = usage.builder.trail ++ [event])
    (cursor : (change usage.builder).cursor = usage.builder.cursor + [event].count .token) :
    Tracks (usage.record change).builder (usage.record change).places := by
  have size := congrArg List.length trail
  rw [List.length_append, Builder.length_trail, Builder.length_trail, List.length_singleton] at size
  have length := tracks.length
  rw [Builder.length_trail] at length
  have places : (usage.record change).places = usage.places ++ [usage.builder.cursor] := by
    rw [record, size, ← length, Nat.add_sub_cancel_left, List.take_of_length_le (Nat.le_succ _)]
    rfl
  have builder : (usage.record change).builder.trail = usage.builder.trail ++ [event] := trail
  refine ⟨?_, ?_, fun i found => ?_⟩
  · rw [builder, List.count_append, tracks.cursor]
    exact cursor.symm
  · rw [places, builder, List.length_append, List.length_append, tracks.length]
    rfl
  · rw [builder] at found ⊢
    rw [places]
    by_cases old : i < usage.builder.trail.length
    · rw [List.getElem?_append_left old] at found
      rw [List.getElem?_append_left (tracks.length ▸ old), tracks.places i found,
        List.take_append_of_le_length (Nat.le_of_lt old)]
    · -- The event is the new one, since nothing is found after it.
      have inside := (List.getElem?_eq_some_iff.1 found).1
      rw [List.length_append, List.length_singleton] at inside
      obtain rfl : i = usage.builder.trail.length := by omega
      rw [← tracks.length, List.getElem?_concat_length, tracks.length,
        List.take_append_of_le_length (Nat.le_refl _), List.take_length, tracks.cursor]

/-- What was recorded since some place is taken back. -/
theorem cut (tracks : Tracks usage.builder usage.places) {start : Nat}
    (trail : (change usage.builder).trail = usage.builder.trail.take start)
    (cursor : (change usage.builder).cursor = (usage.builder.trail.take start).count .token) :
    Tracks (usage.record change).builder (usage.record change).places := by
  have size := congrArg List.length trail
  rw [List.length_take, Builder.length_trail, Builder.length_trail] at size
  have places : (usage.record change).places = usage.places.take start := by
    have none : min start usage.builder.events.size - usage.builder.events.size = 0 := by omega
    rw [record, size, none, ← Builder.length_trail, ← tracks.length, List.replicate_zero,
      List.append_nil, ← List.take_eq_take_min]
  have builder : (usage.record change).builder.trail = usage.builder.trail.take start := trail
  refine ⟨?_, ?_, fun i found => ?_⟩
  · rw [builder]
    exact cursor.symm
  · rw [places, builder, List.length_take, List.length_take, tracks.length]
  · rw [builder] at found ⊢
    rw [List.getElem?_take] at found
    split at found
    · rename_i below
      rw [places, List.getElem?_take_of_lt below, tracks.places i found, List.take_take,
        Nat.min_eq_left (Nat.le_of_lt below)]
    · contradiction

end Tracks

/-- The builder comes of a text, the links lead to beginnings, and what is said of the cursor and of what
is held is true. -/
structure Sound (lexed : Lexed) (usage : Usage) : Prop where
  since : ∃ depth, Builder.Since { Builder.ofLexed lexed with depth } usage.builder
  links : ∀ link ∈ usage.builder.links, usage.builder.trail[link.2]? = some anyStart
  tracks : Tracks usage.builder usage.places
  holds : Holds usage.builder.trail usage.held

namespace Sound

variable {lexed : Lexed} {usage : Usage} {held : List Held}

/-- An event is recorded. -/
theorem grow (sound : usage.Sound lexed) (change : Builder → Builder) (event : Event)
    (since : ∀ base : Builder, base.events.size = 0 → base.Since usage.builder →
      base.Since (change usage.builder))
    (trail : (change usage.builder).trail = usage.builder.trail ++ [event])
    (cursor : (change usage.builder).cursor = usage.builder.cursor + [event].count .token)
    (links : ∀ link ∈ (change usage.builder).links, link ∈ usage.builder.links ∨
      link.2 = usage.builder.trail.length ∧ event = anyStart)
    (holds : Holds (usage.builder.trail ++ [event]) held) :
    Sound lexed { usage.record change with held } where
  since := by
    obtain ⟨depth, came⟩ := sound.since
    exact ⟨depth, since _ rfl came⟩
  links := fun link mem => by
    refine (congrArg (·[link.2]?) trail).trans ?_
    rcases links link mem with old | ⟨new, rfl⟩
    · have found := sound.links link old
      exact (List.getElem?_append_left (List.getElem?_eq_some_iff.1 found).1).trans found
    · rw [new]
      exact List.getElem?_concat_length
  tracks := sound.tracks.grow trail cursor
  holds := trail.symm ▸ holds

/-- An event is recorded that makes no marker and no link. -/
theorem add (sound : usage.Sound lexed) (change : Builder → Builder) (event : Event)
    (since : ∀ base : Builder, base.events.size = 0 → base.Since usage.builder →
      base.Since (change usage.builder))
    (trail : (change usage.builder).trail = usage.builder.trail ++ [event])
    (cursor : (change usage.builder).cursor = usage.builder.cursor + [event].count .token)
    (links : (change usage.builder).links = usage.builder.links)
    (holds : Holds usage.builder.trail held) : Sound lexed { usage.record change with held } :=
  sound.grow change event since trail cursor (fun _ mem => .inl (links ▸ mem)) (holds.append _)

/-- What was recorded since some place is taken back. -/
theorem cut (sound : usage.Sound lexed) (change : Builder → Builder) (start : Nat)
    (since : ∀ base : Builder, base.events.size = 0 → base.Since usage.builder →
      base.Since (change usage.builder))
    (trail : (change usage.builder).trail = usage.builder.trail.take start)
    (cursor : (change usage.builder).cursor = (usage.builder.trail.take start).count .token)
    (links : (change usage.builder).links ⊆ usage.builder.links)
    (holds : Holds (usage.builder.trail.take start) held) :
    Sound lexed { usage.record change with held } where
  since := by
    obtain ⟨depth, came⟩ := sound.since
    exact ⟨depth, since _ rfl came⟩
  links := fun link mem => by
    obtain ⟨depth, came⟩ := sound.since
    have inside := (since _ rfl came).bounded link mem
    have size := congrArg List.length trail
    rw [List.length_take, Builder.length_trail] at size
    refine (congrArg (·[link.2]?) trail).trans ?_
    exact (List.getElem?_take_of_lt (by omega)).trans (sound.links _ (links mem))
  tracks := sound.tracks.cut trail cursor
  holds := trail.symm ▸ holds

/-- Nothing is recorded and nothing taken back. -/
theorem same (sound : usage.Sound lexed) (change : Builder → Builder)
    (since : ∃ depth, Builder.Since { Builder.ofLexed lexed with depth } (change usage.builder))
    (trail : (change usage.builder).trail = usage.builder.trail)
    (cursor : (change usage.builder).cursor = usage.builder.cursor)
    (links : (change usage.builder).links = usage.builder.links) (holds : Holds usage.builder.trail held) :
    Sound lexed { usage.record change with held } where
  since := since
  links := fun link mem => (congrArg (·[link.2]?) trail).trans (sound.links _ (links ▸ mem))
  tracks := sound.tracks.same trail cursor
  holds := trail.symm ▸ holds

/-- What is recorded depends only on what the builder becomes. -/
theorem congr {change change' : Builder → Builder} (sound : Sound lexed (usage.record change))
    (eq : change' usage.builder = change usage.builder) : Sound lexed (usage.record change') := by
  have recorded : usage.record change' = usage.record change := by
    unfold record
    rw [eq]
  rw [recorded]
  exact sound

/-! ### Operations -/

variable (sound : usage.Sound lexed)
include sound

theorem mark : Sound lexed
    { usage.record (·.mark.2) with held := usage.held ++ [.marker usage.builder.mark.1] } := by
  have length := Builder.length_trail usage.builder
  refine sound.grow (·.mark.2) anyStart (fun _ _ came => came.mark) (Builder.trail_push _ _) rfl
    (fun _ mem => .inl mem) (sound.holds.add length.symm (Nat.le_of_eq length.symm) ?_ ?_)
  · change (usage.builder.trail.take usage.builder.events.size).count .token = usage.builder.cursor
    rw [← length, List.take_length, sound.tracks.cursor]
  · rintro other mem same
    have inside := (sound.holds.stands _ mem).lt_length other.position (by simp [Held.indices])
    rw [length, same] at inside
    exact Nat.lt_irrefl _ inside

theorem complete {n : Nat} {made : Marker} (found : usage.held[n]? = some (.marker made))
    (completion : Completion) : Sound lexed
      { usage.record (·.complete made.position completion) with
        held := usage.held.set n (.completed ⟨made.start, made.cursor⟩) } :=
  sound.add _ .finish (fun _ zero came => came.complete completion (zero ▸ Nat.zero_le _))
    (Builder.trail_complete _ _ _) rfl rfl (sound.holds.set n (found ▸ .completed made))

theorem stay : Sound lexed (usage.record id) :=
  sound.same id sound.since rfl rfl rfl sound.holds

theorem advance : Sound lexed (usage.record (·.advance)) := by
  cases more : usage.builder.atEnd with
  | true =>
      have stays : usage.builder.advance = usage.builder := if_pos more
      exact sound.stay.congr stays
  | false =>
      have moves : usage.builder.advance =
          { usage.builder.push .token with cursor := usage.builder.cursor + 1 } := by
        rw [Builder.advance, if_neg (by simp [more])]
        rfl
      refine sound.add (·.advance) .token (fun _ _ came => came.advance) (Builder.trail_advance more) ?_ ?_ sound.holds
      · rw [moves]
        rfl
      · rw [moves]
        rfl

theorem missing (message : String) : Sound lexed (usage.record (·.missing message)) :=
  sound.add _ (.error message) (fun _ _ came => came.missing message) (Builder.trail_push _ _) rfl rfl sound.holds

theorem drop {n : Nat} {made : Marker} (found : usage.held[n]? = some (.marker made)) :
    Sound lexed { usage.record (·.drop made) with held := usage.held.set n .gone } := by
  obtain ⟨own, le, -⟩ := sound.holds.stands _ (List.mem_of_getElem? found)
  have since (base : Builder) (zero : base.events.size = 0) (came : base.Since usage.builder) :
      base.Since (usage.builder.drop made) := came.drop (zero ▸ Nat.zero_le _)
  have dropped := sound.holds.set n (.gone _)
  by_cases last : made.position + 1 = usage.builder.events.size
  · have cuts : usage.builder.drop made = usage.builder.truncate made.position := if_pos last
    rw [← Builder.length_trail] at last
    -- Its own beginning is all that is cut off, so no token is.
    have whole : usage.builder.trail = usage.builder.trail.take made.position ++ [anyStart] := by
      have all := List.take_add_one (l := usage.builder.trail) (i := made.position)
      rwa [last, List.take_length, own] at all
    have tokens := congrArg (List.count .token) whole
    rw [List.count_append, sound.tracks.cursor] at tokens
    refine sound.cut (·.drop made) made.position since ?_ ?_ ?_ (dropped.take fun one mem i index => ?_)
    · rw [cuts]
      exact Builder.trail_truncate _ _
    · rw [cuts]
      exact tokens
    · rw [cuts, Builder.links_truncate]
      exact (List.dropWhile_sublist _).subset
    · obtain rfl | ⟨n', ne, found'⟩ := Held.mem_set_gone mem
      · contradiction
      · have inside := (sound.holds.stands _ (List.mem_of_getElem? found')).lt_length i index
        have apart : made.position ≠ i := fun same =>
          sound.holds.apart n n' made one found ne.symm found' (same ▸ index)
        omega
  · have stays : usage.builder.drop made = { usage.builder with
        events := usage.builder.events.setIfInBounds made.position .tombstone } := if_neg last
    refine sound.same (·.drop made) ?_ ?_ ?_ ?_ dropped
    · obtain ⟨depth, came⟩ := sound.since
      exact ⟨depth, since _ rfl came⟩
    · rw [stays]
      exact Event.sorts_tombstone own
    · rw [stays]
    · rw [stays]

theorem goBack {n start cursor : Nat} 
    (here : (usage.builder.trail.take start).count .token = cursor) :
    Sound lexed (usage.goBack n start cursor) := by
  refine sound.cut (·.rollbackTo start cursor) start (fun _ zero came => came.rollbackTo (zero ▸ Nat.zero_le _) ?_)
    (Builder.trail_truncate start usage.builder) here.symm ?_ ((sound.holds.set n (.gone _)).before start)
  · have le := (List.take_sublist start usage.builder.trail).count_le .token
    rw [here, sound.tracks.cursor] at le
    exact Nat.le_trans le came.inside
  · exact Builder.links_truncate start usage.builder ▸ (List.dropWhile_sublist _).subset

theorem precede {n : Nat} {made : Completed} (found : usage.held[n]? = some (.completed made)) :
    Sound lexed { usage.record (fun builder => (builder.precede made).2) with
      held := usage.held.set n .gone ++ [.marker (usage.builder.precede made).1] } := by
  have length := Builder.length_trail usage.builder
  obtain ⟨start, cursor⟩ := sound.holds.stands _ (List.mem_of_getElem? found)
  refine sound.grow (fun builder => (builder.precede made).2) anyStart
    (fun _ zero came => came.precede (zero ▸ Nat.zero_le _) ?_)
    (Builder.trail_precede made usage.builder) rfl (fun link mem => ?_)
    ((sound.holds.set n (.gone _)).add length.symm (Nat.le_of_lt start) cursor ?_)
  · exact length ▸ start
  · rcases List.mem_cons.1 mem with rfl | old
    · exact .inr ⟨length.symm, rfl⟩
    · exact .inl old
  · rintro other mem same
    obtain none | ⟨n', ne, found'⟩ := Held.mem_set_gone mem
    · contradiction
    · exact sound.holds.apart n' n other _ found' ne found (List.mem_singleton.2 same)

/-- Whatever is done with live markers, all of it stays true. -/
theorem step {use : Use} {next : Usage} (does : usage.step use = some next) : next.Sound lexed := by
  cases use with
  | does operation =>
      cases operation with
      | mark =>
          cases does
          exact sound.mark
      | done marker kind =>
          obtain ⟨made, found, does⟩ := Option.bind_eq_some_iff.1 does
          cases does
          exact sound.complete (Bench.held_of_marker? found) (.node kind)
      | error marker message =>
          obtain ⟨made, found, does⟩ := Option.bind_eq_some_iff.1 does
          cases does
          exact sound.complete (Bench.held_of_marker? found) (.error message)
      | drop marker =>
          obtain ⟨made, found, does⟩ := Option.bind_eq_some_iff.1 does
          cases does
          exact sound.drop (Bench.held_of_marker? found)
      | rollback marker =>
          dsimp only [Usage.step] at does
          split at does
          · rename_i found
            cases does
            exact sound.goBack (sound.holds.stands _ (List.mem_of_getElem? found)).2.2
          · rename_i found
            cases does
            exact sound.goBack (sound.holds.stands _ (List.mem_of_getElem? found)).2
          · contradiction
      | precede marker =>
          obtain ⟨made, found, does⟩ := Option.bind_eq_some_iff.1 does
          cases does
          exact sound.precede (Bench.held_of_completed? found)
      | keep marker =>
          obtain ⟨made, -, does⟩ := Option.bind_eq_some_iff.1 does
          cases does
          exact { sound with holds := sound.holds.set marker (.gone _) }
      | advance =>
          cases does
          exact sound.advance
      | missing message =>
          cases does
          exact sound.missing message
      | advanceError message =>
          dsimp only [Usage.step] at does
          split at does
          · cases does
            exact sound.missing message
          · cases does
            have made := sound.mark.advance.complete List.getElem?_concat_length (.error message)
            have used := made.holds.set usage.held.length (.gone _)
            rw [List.set_set] at used
            have last : (usage.held ++ [Held.marker usage.builder.mark.1]).set usage.held.length .gone =
                usage.held ++ [.gone] := by simp
            exact { made with holds := last ▸ used }
  | takes kind =>
      cases does
      cases here : usage.builder.isAt kind with
      | true => exact sound.advance.congr (by rw [Builder.matches?, if_pos here])
      | false => exact sound.stay.congr (by rw [Builder.matches?, if_neg (by simp [here])]; rfl)
  | expects kind message =>
      cases does
      cases here : usage.builder.isAt kind with
      | true => exact sound.advance.congr (by rw [Builder.expect, if_pos here])
      | false => exact (sound.missing message).congr (by rw [Builder.expect, if_neg (by simp [here])])
  | enters =>
      cases does
      obtain ⟨depth, came⟩ := sound.since
      have entered : usage.builder.enter.2 =
          { usage.builder with depth := usage.builder.enter.2.depth } := by
        unfold Builder.enter
        split <;> rfl
      refine sound.same (·.enter.2) ⟨usage.builder.enter.2.depth, ?_⟩ ?_ ?_ ?_ sound.holds
      all_goals rw [entered]
      · exact came.atDepth _
      · rfl
  | exits =>
      cases does
      obtain ⟨depth, came⟩ := sound.since
      exact sound.same (·.exit) ⟨_, came.atDepth _⟩ rfl rfl rfl sound.holds

end Sound

theorem sound_ofLexed (lexed : Lexed) : (ofLexed lexed).Sound lexed where
  since := ⟨0, Builder.since_ofLexed lexed⟩
  links := nofun
  tracks := ⟨rfl, rfl, nofun⟩
  holds := ⟨nofun, nofun⟩

theorem Sound.run {lexed : Lexed} {usage last : Usage} (sound : usage.Sound lexed) {uses : List Use}
    (did : usage.run uses = some last) : last.Sound lexed := by
  induction uses generalizing usage with
  | nil =>
      cases did
      exact sound
  | cons use uses ih =>
      obtain ⟨next, does, did⟩ := Option.bind_eq_some_iff.1 did
      exact ih (sound.step does) did

end Usage

/-! ## Which token is put in for an event -/

/-- What a tree is made from, before the first step. -/
def Builder.assembly (builder : Builder) : Assembly where
  tokens := builder.tokens
  messages := builder.messages
  stop := (builder.tokens.getLast?.map (·.span.stop)).getD {}

/-- An event puts a token into the tree: when the steps for the events before it have been made, this is the
first one after those that were passed over, and the next step puts it in. -/
def Builder.Puts (builder : Builder) (index : Nat) (token : Token) : Prop :=
  ∃ earlier later rest, Step.resolve builder.events = earlier ++ .token :: later ∧
    earlier.length = index ∧
    let before := earlier.foldl Assembly.step builder.assembly
    before.flushSkipped.tokens = token :: rest ∧
      before.step .token = Assembly.push (.leaf token) { before.flushSkipped with tokens := rest } ∧
      builder.finish = (Assembly.run later (before.step .token)).root

theorem Builder.puts_of_unplaced {builder : Builder} (chained : Step.Chained builder.events) {index : Nat}
    (found : builder.trail[index]? = some .token) {token : Token}
    (next : builder.assembly.unplaced[(builder.trail.take index).count .token]? = some token) :
    builder.Puts index token := by
  have same : (Step.resolve builder.events).map Step.sort = builder.trail := Step.map_sort_resolve chained
  obtain ⟨inside, here⟩ := List.getElem?_eq_some_iff.1 found
  have inside' : index < (Step.resolve builder.events).length := by
    rwa [← same, List.length_map] at inside
  have step : (Step.resolve builder.events)[index] = .token := by
    refine Step.sort_eq_token.1 ?_
    rw [← here, List.getElem_of_eq same.symm, List.getElem_map]
  have split : Step.resolve builder.events = (Step.resolve builder.events).take index ++
      .token :: (Step.resolve builder.events).drop (index + 1) := by
    rw [← step, List.getElem_cons_drop, List.take_append_drop]
  let before := ((Step.resolve builder.events).take index).foldl Assembly.step builder.assembly
  have dropped := Assembly.unplaced_foldl ((Step.resolve builder.events).take index) builder.assembly
  rw [List.map_take, same] at dropped
  have first : before.unplaced.head? = some token := by
    rw [dropped, List.head?_drop, next]
  obtain ⟨left, unplaced⟩ := List.head?_eq_some_iff.1 first
  obtain ⟨rest, tokens⟩ := Assembly.exists_flushSkipped unplaced
  refine ⟨_, _, rest, split, List.length_take_of_le (Nat.le_of_lt inside'), tokens, ?_, ?_⟩
  · change Assembly.takeToken _ = _
    rw [Assembly.takeToken]
    dsimp only
    rw [tokens]
  · have made : builder.finish = (Assembly.run (Step.resolve builder.events) builder.assembly).root := rfl
    rw [split, Assembly.run_append] at made
    exact made

/-- Whatever is done with a builder and its live markers, its tree has all the tokens of the text, and for
each event the token is put in that the cursor was at: after so many others that a grammar sees as there
are events for tokens before it. -/
theorem leaves_run {lexed : Lexed} {uses : List Use} {usage : Usage}
    (did : (Usage.ofLexed lexed).run uses = some usage) :
    usage.builder.finish.leaves = lexed.tokens ∧
      ∀ index, usage.builder.events[index]? = some .token →
        let passed := (usage.builder.events.toList.take index).count .token
        usage.places[index]? = some passed ∧
          ∃ token, (lexed.tokens.filter (·.kind.isSignificant))[passed]? = some token ∧
            usage.builder.Puts index token := by
  have sound := (Usage.sound_ofLexed lexed).run did
  obtain ⟨depth, came⟩ := sound.since
  refine ⟨?_, fun index event => ?_⟩
  · rw [Builder.leaves_finish]
    exact came.tokens
  · have found : usage.builder.trail[index]? = some .token := by
      rw [Builder.trail, Event.getElem?_sorts, event]
      rfl
    have passed : (usage.builder.trail.take index).count .token =
        (usage.builder.events.toList.take index).count .token := by
      rw [Builder.trail, Event.sorts, ← List.map_take, Event.count_map_sort]
    have chained : Step.Chained usage.builder.events := fun i wrapper wraps =>
      sound.links _ (came.recorded i wrapper wraps)
    dsimp only
    rw [← passed]
    refine ⟨sound.tracks.places index found, ?_⟩
    have more : (usage.builder.trail.take index).count .token <
        (lexed.tokens.filter (·.kind.isSignificant)).length := by
      obtain ⟨inside, here⟩ := List.getElem?_eq_some_iff.1 found
      have all := sound.tracks.cursor
      rw [← List.take_append_drop index usage.builder.trail, List.drop_eq_getElem_cons inside, here,
        List.count_append, List.count_cons_self] at all
      have le : usage.builder.cursor ≤ (lexed.tokens.filter (·.kind.isSignificant)).length := came.inside
      omega
    refine ⟨_, List.getElem?_eq_getElem more, Builder.puts_of_unplaced chained found ?_⟩
    rw [Assembly.unplaced, Builder.assembly, came.tokens]
    exact List.getElem?_eq_getElem more

/-- A node is closed before one that began in it, the wrapper around it is resolved later still, one
attempt is taken back, and one marker is never resolved. -/
theorem leaves_run_of_unordered :
    let name := Token.zeroWidth .identifier {} 0
    let plus := Token.zeroWidth (.operator .plus) {} 0
    let lexed : Lexed := ⟨[name, Token.zeroWidth .space {} 0, plus, name], []⟩
    let uses : List Use := [.does .mark, .does .advance, .does .mark, .does (.done 0 .file),
      .does (.precede 0), .takes (.operator .plus), .does .mark, .does .advance, .does (.rollback 3),
      .does (.drop 1), .expects .identifier "name", .does (.done 2 .binaryExpression), .does .mark]
    ∃ usage, (Usage.ofLexed lexed).run uses = some usage ∧ usage.builder.finish.leaves = lexed.tokens ∧
      ∀ index, usage.builder.events[index]? = some .token →
        let passed := (usage.builder.events.toList.take index).count .token
        usage.places[index]? = some passed ∧
          ∃ token, (lexed.tokens.filter (·.kind.isSignificant))[passed]? = some token ∧
            usage.builder.Puts index token := by
  intro name plus lexed uses
  have all : ((Usage.ofLexed lexed).run uses).isSome = true := by
    subst uses lexed plus name
    decide +kernel
  obtain ⟨usage, did⟩ := Option.isSome_iff_exists.1 all
  exact ⟨usage, did, leaves_run did⟩

end StarlarkSyntax
