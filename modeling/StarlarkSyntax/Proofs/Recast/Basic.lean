import StarlarkSyntax.Proofs.Checked.Matches
import StarlarkSyntax.Proofs.Recast.Builder
/-!
# Rules that read the same as a value and as a target

Two rules are followed side by side, from two parsers on. What the first one gives, `Pairs` says that the
second one gives too, and that their answers and builders stand in some relation. Nothing of the parsers but
their builders changes. `Recasts` is about rules that answer the same and leave no marker behind; they keep the
builders alike (`Builder.Alike`), whatever they are alike in before.

That the first rule ends is not asked here. So a loop needs no measure, as for rules with assertions
(`goOn_induct`).
-/

set_option autoImplicit false

namespace StarlarkSyntax

open Builder (Alike)

/-- The same parser over another builder. -/
def Parser.over (parser : Parser) (builder : Builder) : Parser :=
  { parser with builder }

namespace Grammar

/-- The builders have come to be alike since two parsers, and are nested this deep. -/
abbrev InStep (parser parser' : Parser) (level : Nat) (value target : Builder) : Prop :=
  Alike parser.builder parser'.builder level value target

/-- Markers of the same place that were made since two parsers. -/
abbrev SamePlace (parser parser' : Parser) (marker marker' : Marker) : Prop :=
  marker.Alike parser.builder parser'.builder marker'

/-! ## Rules side by side -/

/-- A rule gives over a builder what another rule has given. -/
abbrev Answers {α α' : Type} (rule' : ParseM α') (parser parser' : Parser) (target : Builder)
    (after : α → α' → Builder → Builder → Prop) (answer : α) (next : Parser) : Prop :=
  ∃ answer' value' target', next = parser.over value' ∧
    rule' (parser'.over target) = some (answer', parser'.over target') ∧ after answer answer' value' target'

/-- What the first rule gives over a builder, the second one gives over another. -/
def Pairs {α α' : Type} (rule : ParseM α) (rule' : ParseM α') (parser parser' : Parser) (value target : Builder)
    (after : α → α' → Builder → Builder → Prop) : Prop :=
  ∀ answer next, rule (parser.over value) = some (answer, next) →
    Answers rule' parser parser' target after answer next

namespace Pairs

variable {α α' β β' : Type} {rule : ParseM α} {rule' : ParseM α'} {parser parser' : Parser}
  {value target : Builder} {after : α → α' → Builder → Builder → Prop}

theorem mono {after' : α → α' → Builder → Builder → Prop}
    (pairs : Pairs rule rule' parser parser' value target after)
    (implies : ∀ answer answer' value target, after answer answer' value target →
      after' answer answer' value target) : Pairs rule rule' parser parser' value target after' := by
  intro answer next ran
  obtain ⟨answer', value', target', same, ran', holds⟩ := pairs answer next ran
  exact ⟨answer', value', target', same, ran', implies answer answer' value' target' holds⟩

theorem pure {answer : α} {answer' : α'} (holds : after answer answer' value target) :
    Pairs (Pure.pure answer) (Pure.pure answer') parser parser' value target after := by
  rintro _ _ ⟨⟩
  exact ⟨answer', value, target, rfl, rfl, holds⟩

theorem bind {more : α → ParseM β} {more' : α' → ParseM β'} {after' : β → β' → Builder → Builder → Prop}
    (pairs : Pairs rule rule' parser parser' value target after)
    (continues : ∀ answer answer' value target, after answer answer' value target →
      Pairs (more answer) (more' answer') parser parser' value target after') :
    Pairs (rule >>= more) (rule' >>= more') parser parser' value target after' := by
  intro last next ran
  obtain ⟨answer, middle, first, rest⟩ := bind_eq_some.1 ran
  obtain ⟨answer', value', target', rfl, first', holds⟩ := pairs answer middle first
  obtain ⟨last', value'', target'', same, rest', holds'⟩ := continues answer answer' value' target' holds last next rest
  exact ⟨last', value'', target'', same, bind_eq_some.2 ⟨answer', _, first', rest'⟩, holds'⟩

theorem ite {claim claim' : Prop} [Decidable claim] [Decidable claim'] {other : ParseM α} {other' : ParseM α'}
    (same : claim' ↔ claim) (yes : claim → Pairs rule rule' parser parser' value target after)
    (no : ¬claim → Pairs other other' parser parser' value target after) :
    Pairs (if claim then rule else other) (if claim' then rule' else other') parser parser' value target after := by
  simp only [same]
  split
  · exact yes ‹_›
  · exact no ‹_›

/-- What is known to hold after the second rule. -/
theorem with_ends {known : α' → Parser → Prop} (pairs : Pairs rule rule' parser parser' value target after)
    (ends : Ends rule' (parser'.over target) known) :
    Pairs rule rule' parser parser' value target fun answer answer' value target =>
      after answer answer' value target ∧ known answer' (parser'.over target) := by
  intro answer next ran
  obtain ⟨answer', value', target', same, ran', holds⟩ := pairs answer next ran
  obtain ⟨_, _, ran'', known⟩ := ends
  cases ran'.symm.trans ran''
  exact ⟨answer', value', target', same, ran', holds, known⟩

/-- A change of both builders. -/
theorem withBuilder {change : Builder → α × Builder} {change' : Builder → α' × Builder}
    (holds : after (change value).1 (change' target).1 (change value).2 (change' target).2) :
    Pairs (Grammar.withBuilder change) (Grammar.withBuilder change') parser parser' value target after := by
  rintro _ _ ⟨⟩
  exact ⟨_, _, _, rfl, rfl, holds⟩

/-- A look at what is the same. -/
theorem look (view : Builder → α) {more : α → ParseM β} {more' : α → ParseM β'}
    {after' : β → β' → Builder → Builder → Prop} (same : view target = view value)
    (pairs : Pairs (more (view value)) (more' (view value)) parser parser' value target after') :
    Pairs (Grammar.look view >>= more) (Grammar.look view >>= more') parser parser' value target after' := by
  intro answer next ran
  obtain ⟨answer', value', target', eq, ran', holds⟩ := pairs answer next ran
  refine ⟨answer', value', target', eq, ?_, holds⟩
  change more' (view target) (parser'.over target) = _
  rw [same]
  exact ran'

/-- What follows rules that pair either pairs, or the second one ends in another way. -/
theorem bind_or {more : α → ParseM β} {more' : α' → ParseM β'} {after' : β → β' → Builder → Builder → Prop}
    {leaves : β' → Parser → Prop} (pairs : Pairs rule rule' parser parser' value target after)
    (continues : ∀ answer answer' value target, after answer answer' value target →
      Pairs (more answer) (more' answer') parser parser' value target after' ∨
        Ends (more' answer') (parser'.over target) leaves) :
    Pairs (rule >>= more) (rule' >>= more') parser parser' value target after' ∨
      Ends (rule' >>= more') (parser'.over target) leaves := by
  cases ran : rule (parser.over value) with
  | none =>
      refine .inl fun answer next whole => ?_
      obtain ⟨_, _, first, -⟩ := bind_eq_some.1 whole
      cases ran.symm.trans first
  | some result =>
      obtain ⟨answer', value', target', next, ran', holds⟩ := pairs result.1 result.2 ran
      refine (continues _ _ value' target' holds).imp (fun pairs' answer last whole => ?_) fun ends => ?_
      · obtain ⟨_, _, first, rest⟩ := bind_eq_some.1 whole
        cases ran.symm.trans first
        obtain ⟨last', value'', target'', same, rest', holds'⟩ := pairs' answer last (next ▸ rest)
        exact ⟨last', value'', target'', same, bind_eq_some.2 ⟨_, _, ran', rest'⟩, holds'⟩
      · obtain ⟨answer, last, rest, left⟩ := ends
        exact ⟨answer, last, bind_eq_some.2 ⟨_, _, ran', rest⟩, left⟩

/-- Rules that are repeated pair if their rounds do, and all of these together keep an invariant. A round of
the second rule may also leave the repetition in another way. -/
theorem loop_or {σ σ' : Type} {rule : σ → ParseM (Bool × σ)} {rule' : σ' → ParseM (Bool × σ')}
    (invariant after : σ → σ' → Builder → Builder → Prop) (leaves : σ' → Parser → Prop)
    (round : ∀ state state' value target, invariant state state' value target →
      Pairs (rule state) (rule' state') parser parser' value target (fun answer answer' value target =>
        answer'.1 = answer.1 ∧ if answer.1 then invariant answer.2 answer'.2 value target
          else after answer.2 answer'.2 value target) ∨
      Ends (rule' state') (parser'.over target) fun answer next => answer.1 = false ∧ leaves answer.2 next)
    {state : σ} {state' : σ'} (holds : invariant state state' value target) :
    Pairs (Grammar.loop rule state) (Grammar.loop rule' state') parser parser' value target after ∨
      Ends (Grammar.loop rule' state') (parser'.over target) leaves := by
  have leave {state' : σ'} {target : Builder} (ends : Ends (rule' state') (parser'.over target)
      fun answer next => answer.1 = false ∧ leaves answer.2 next) :
      Ends (Grammar.loop rule' state') (parser'.over target) leaves := by
    rw [loop_eq]
    refine ends.bind ?_
    rintro ⟨_, state⟩ next ⟨rfl, left⟩
    exact .pure left
  cases ran : Grammar.loop rule state (parser.over value) with
  | none => exact .inl fun answer next whole => by cases ran.symm.trans whole
  | some result =>
      suffices Answers (Grammar.loop rule' state') parser parser' target after result.1 result.2 ∨
          Ends (Grammar.loop rule' state') (parser'.over target) leaves from
        this.imp_left fun found answer next whole => by
          cases ran.symm.trans whole
          exact found
      refine goOn_induct (fun first start answer final => ∀ state state' value target, start = parser.over value →
        first = rule state → invariant state state' value target →
          Answers (Grammar.loop rule' state') parser parser' target after answer final ∨
            Ends (Grammar.loop rule' state') (parser'.over target) leaves)
        ?_ ?_ _ _ _ _ ran state state' value target rfl rfl holds
      · rintro _ _ last next ran state state' value target rfl rfl holds
        refine (round state state' value target holds).imp (fun pairs => ?_) leave
        obtain ⟨⟨_, last'⟩, value', target', same, ran', rfl, holds⟩ := pairs _ _ ran
        rw [loop_eq]
        exact ⟨last', value', target', same, bind_eq_some.2 ⟨_, _, ran', rfl⟩, holds⟩
      · rintro _ _ again next answer final ran ih state state' value target rfl rfl holds
        refine (round state state' value target holds).elim (fun pairs => ?_) fun ends => .inr (leave ends)
        obtain ⟨⟨_, again'⟩, value', target', same, ran', rfl, holds⟩ := pairs _ _ ran
        have step : Grammar.loop rule' state' (parser'.over target) =
            Grammar.loop rule' again' (parser'.over target') := by
          conv => lhs; rw [loop_eq]
          exact congrArg (Option.bind · _) ran'
        rw [Answers, Ends, step]
        exact ih again again' value' target' same rfl holds

/-- Rules that are repeated keep what holds of both if their rounds do. -/
theorem loop {σ σ' : Type} {rule : σ → ParseM (Bool × σ)} {rule' : σ' → ParseM (Bool × σ')}
    (invariant : σ → σ' → Builder → Builder → Prop)
    (round : ∀ state state' value target, invariant state state' value target →
      Pairs (rule state) (rule' state') parser parser' value target fun answer answer' value target =>
        answer'.1 = answer.1 ∧ invariant answer.2 answer'.2 value target)
    {state : σ} {state' : σ'} (holds : invariant state state' value target) :
    Pairs (Grammar.loop rule state) (Grammar.loop rule' state') parser parser' value target invariant := by
  refine (loop_or invariant invariant (fun _ _ => False) (fun state state' value target holds => .inl ?_)
    holds).resolve_right fun ends => ends.elim fun _ more => more.elim fun _ ran => ran.2
  refine (round state state' value target holds).mono fun answer answer' value target kept => ?_
  rw [ite_self]
  exact kept

end Pairs

/-! ## Rules that keep builders alike -/

/-- Over builders that are alike since the readings began, the second rule gives what the first one gives, and
they stay alike. -/
def Recasts {α : Type} (parser parser' : Parser) (level : Nat) (rule rule' : ParseM α) : Prop :=
  ∀ value target : Builder, InStep parser parser' level value target →
    Pairs rule rule' parser parser' value target fun answer answer' value target =>
      answer' = answer ∧ InStep parser parser' level value target

section

variable {α β σ : Type} {parser parser' : Parser} {level : Nat} {value target : Builder}

namespace Recasts

variable {rule rule' other other' : ParseM α}

/-- What follows a rule, over builders that are alike. -/
theorem continue_with {β β' : Type} {more : α → ParseM β} {more' : α → ParseM β'}
    {after : β → β' → Builder → Builder → Prop} (recasts : Recasts parser parser' level rule rule')
    (inStep : InStep parser parser' level value target)
    (continues : ∀ answer value target, InStep parser parser' level value target →
      Pairs (more answer) (more' answer) parser parser' value target after) :
    Pairs (rule >>= more) (rule' >>= more') parser parser' value target after := by
  refine (recasts value target inStep).bind ?_
  rintro _ answer value target ⟨rfl, inStep⟩
  exact continues answer value target inStep

theorem pure (answer : α) : Recasts parser parser' level (Pure.pure answer) (Pure.pure answer) :=
  fun _ _ inStep => .pure ⟨rfl, inStep⟩

theorem bind {more more' : α → ParseM β} (recasts : Recasts parser parser' level rule rule')
    (continues : ∀ answer, Recasts parser parser' level (more answer) (more' answer)) :
    Recasts parser parser' level (rule >>= more) (rule' >>= more') :=
  fun _ _ inStep => recasts.continue_with inStep fun answer => continues answer

theorem ite {claim : Prop} [Decidable claim] (yes : claim → Recasts parser parser' level rule rule')
    (no : ¬claim → Recasts parser parser' level other other') :
    Recasts parser parser' level (if claim then rule else other) (if claim then rule' else other') := by
  split
  · exact yes ‹_›
  · exact no ‹_›

theorem loop {rule rule' : σ → ParseM (Bool × σ)}
    (round : ∀ state, Recasts parser parser' level (rule state) (rule' state)) (state : σ) :
    Recasts parser parser' level (Grammar.loop rule state) (Grammar.loop rule' state) := by
  refine fun _ _ inStep => .loop
    (fun state state' value target => state' = state ∧ InStep parser parser' level value target) ?_ ⟨rfl, inStep⟩
  rintro state _ value target ⟨rfl, inStep⟩
  refine (round _ value target inStep).mono ?_
  rintro answer _ value target ⟨rfl, inStep⟩
  exact ⟨rfl, rfl, inStep⟩

theorem repeatWhile {rule rule' : ParseM Bool} (recasts : Recasts parser parser' level rule rule') :
    Recasts parser parser' level (Grammar.repeatWhile rule) (Grammar.repeatWhile rule') :=
  loop (fun _ => recasts.bind fun _ => pure _) ()

end Recasts

/-- Nothing was taken back of the second builder yet. -/
theorem since_over (inStep : InStep parser parser' level value target) :
    (parser'.over target).Since level target.cursor (parser'.over target) :=
  ⟨inStep.since'.self, rfl, rfl, inStep.since'.depth, Nat.le_refl _⟩

/-- Both readings have a marker of the same place, and something after it. -/
structure Around (parser parser' : Parser) (level : Nat) (marker marker' : Marker) (value target : Builder) :
    Prop where
  inStep : InStep parser parser' level value target
  markers : SamePlace parser parser' marker marker'
  begun : marker'.start < target.events.size

/-- What follows a rule that takes nothing back of what is after a marker. -/
theorem Recasts.within {β β' : Type} {rule rule' : ParseM α} {more : α → ParseM β} {more' : α → ParseM β'}
    {after : β → β' → Builder → Builder → Prop} {marker marker' : Marker}
    (recasts : Recasts parser parser' level rule rule') (keeps : Keeps level rule')
    (around : Around parser parser' level marker marker' value target)
    (continues : ∀ answer value target, Around parser parser' level marker marker' value target →
      Pairs (more answer) (more' answer) parser parser' value target after) :
    Pairs (rule >>= more) (rule' >>= more') parser parser' value target after := by
  refine ((recasts value target around.inStep).with_ends (keeps.size (since_over around.inStep))).bind ?_
  rintro _ answer value target ⟨⟨rfl, inStep⟩, -, grown⟩
  exact continues answer value target ⟨inStep, around.markers, Nat.lt_of_lt_of_le around.begun grown⟩

/-! ## Operations of the builder -/

section

variable {view : Builder → α} {marker marker' : Marker}

theorem recasts_look (same : ∀ value target : Builder,
    InStep parser parser' level value target → view target = view value) :
    Recasts parser parser' level (look view) (look view) := by
  rintro value target inStep _ _ ⟨⟩
  exact ⟨_, value, target, rfl, rfl, same value target inStep, inStep⟩

theorem recasts_current? : Recasts parser parser' level current? current? :=
  recasts_look fun _ _ inStep => inStep.current?

theorem recasts_isAt (kind : Kind) : Recasts parser parser' level (isAt kind) (isAt kind) :=
  recasts_look fun _ _ inStep => inStep.isAt kind

theorem recasts_isAtAny (kinds : List Kind) : Recasts parser parser' level (isAtAny kinds) (isAtAny kinds) :=
  recasts_look fun _ _ inStep => inStep.isAtAny kinds

theorem recasts_atEnd : Recasts parser parser' level atEnd atEnd :=
  recasts_look fun _ _ inStep => inStep.atEnd

/-- A change that keeps what is alike alike. -/
theorem recasts_onBuilder {change change' : Builder → Builder}
    (keeps : ∀ value target, InStep parser parser' level value target →
      InStep parser parser' level (change value) (change' target)) :
    Recasts parser parser' level (onBuilder change) (onBuilder change') :=
  fun value target inStep => .withBuilder ⟨rfl, keeps value target inStep⟩

theorem recasts_advance : Recasts parser parser' level advance advance :=
  recasts_onBuilder fun _ _ inStep => inStep.advance

theorem recasts_missing (message : String) : Recasts parser parser' level (missing message) (missing message) :=
  recasts_onBuilder fun _ _ inStep => inStep.missing message

theorem recasts_matches? (kind : Kind) : Recasts parser parser' level (matches? kind) (matches? kind) :=
  fun value target inStep => .withBuilder ⟨by
    unfold Builder.matches?
    rw [inStep.isAt]
    split <;> rfl, inStep.matches? kind⟩

theorem recasts_expect (kind : Kind) (message : String) :
    Recasts parser parser' level (expect kind message) (expect kind message) :=
  fun value target inStep => .withBuilder ⟨by
    unfold Builder.expect
    rw [inStep.isAt]
    split <;> rfl, inStep.expect kind message⟩

/-- A name may be made a reference here and a target there. -/
theorem recasts_done (markers : SamePlace parser parser' marker marker') {kind kind' : NodeKind}
    (kinds : (Completion.node kind).Recast (.node kind')) :
    Recasts parser parser' level (done marker kind) (done marker' kind') :=
  recasts_onBuilder fun _ _ inStep => inStep.complete markers.position kinds

theorem recasts_fault (markers : SamePlace parser parser' marker marker') (message : String) :
    Recasts parser parser' level (fault marker message) (fault marker' message) :=
  recasts_onBuilder fun _ _ inStep => inStep.complete markers.position (.same _)

theorem recasts_drop (markers : SamePlace parser parser' marker marker') :
    Recasts parser parser' level (drop marker) (drop marker') :=
  recasts_onBuilder fun _ _ inStep => inStep.drop markers

theorem recasts_rollback (markers : SamePlace parser parser' marker marker') :
    Recasts parser parser' level (rollback marker) (rollback marker') :=
  recasts_onBuilder fun _ _ inStep => inStep.rollback markers

/-- The place of a marker is the next event. -/
theorem pairs_mark (inStep : InStep parser parser' level value target) :
    Pairs mark mark parser parser' value target fun marker marker' value' target' =>
      marker' = target.mark.1 ∧ target' = target.mark.2 ∧ Around parser parser' level marker marker' value' target' :=
  .withBuilder ⟨rfl, rfl, inStep.mark, inStep.marker, by simp [Builder.mark, Builder.push]⟩

/-- What is done with a marker is done with markers of the same place. -/
theorem recasts_mark {more more' : Marker → ParseM β}
    (continues : ∀ {marker marker' : Marker}, SamePlace parser parser' marker marker' →
      Recasts parser parser' level (more marker) (more' marker')) :
    Recasts parser parser' level (mark >>= more) (mark >>= more') := by
  intro value target inStep
  refine (pairs_mark inStep).bind ?_
  rintro marker _ value' _ ⟨rfl, rfl, around⟩
  exact continues around.markers value' _ around.inStep

/-- The marker around a node begins where the node does. -/
theorem pairs_wrap (around : Around parser parser' level marker marker' value target) {kind kind' : NodeKind}
    (kinds : (Completion.node kind).Recast (.node kind')) :
    Pairs (wrap marker kind) (wrap marker' kind') parser parser' value target fun wrapper wrapper' value target =>
      wrapper'.start = marker'.start ∧ Around parser parser' level wrapper wrapper' value target := by
  obtain ⟨inStep, markers, begun⟩ := around
  have done := inStep.complete markers.position kinds
  have begun' : marker'.start < (target.complete marker'.position (.node kind')).events.size := by
    simp only [Builder.complete, Array.size_push, Array.size_modify]
    omega
  refine .withBuilder
    ⟨rfl, done.precede markers.start ((markers.start.lt_iff done.tally.size).2 begun'), ?_, ?_⟩
  · exact ⟨done.tally.size, markers.start, markers.cursor, markers.inside⟩
  · simp only [Builder.precede, Builder.mark, Builder.push, Array.size_modify, Array.size_push]
    exact Nat.lt_succ_of_lt begun'

theorem recasts_tokenNode {kind kind' : NodeKind} (kinds : (Completion.node kind).Recast (.node kind')) :
    Recasts parser parser' level (tokenNode kind) (tokenNode kind') :=
  recasts_mark fun markers => recasts_advance.bind fun _ => recasts_done markers kinds

theorem recasts_emptyNode (kind : NodeKind) :
    Recasts parser parser' level (emptyNode kind) (emptyNode kind) :=
  recasts_mark fun markers => recasts_done markers (.same _)

theorem Recasts.require {rule rule' : ParseM Bool} (recasts : Recasts parser parser' level rule rule')
    (message : String) :
    Recasts parser parser' level (Grammar.require message rule) (Grammar.require message rule') :=
  recasts.bind fun _ => .ite (fun _ => recasts_missing message) fun _ => .pure ()

theorem recasts_skipUntil (stops : List Kind) :
    Recasts parser parser' level (skipUntil stops) (skipUntil stops) :=
  .loop (fun _ => recasts_atEnd.bind fun _ => (recasts_isAtAny stops).bind fun _ =>
    .ite (fun _ => .pure _) fun _ => recasts_advance.bind fun _ => .pure _) false

end

/-! ## Nesting -/

theorem recasts_skipRound (opened : Nat) :
    Recasts parser parser' level (skipRound opened) (skipRound opened) := by
  refine recasts_current?.bind fun kind? => ?_
  split
  · exact .pure _
  · exact .pure _
  · exact recasts_advance.bind fun _ => .pure _

theorem recasts_skipTooDeep : Recasts parser parser' level skipTooDeep skipTooDeep := by
  refine recasts_current?.bind fun kind? => ?_
  split
  · exact (recasts_missing tooDeep).bind fun _ => .pure false
  · exact (recasts_missing tooDeep).bind fun _ => .pure false
  · exact (recasts_missing tooDeep).bind fun _ => .pure false
  · exact recasts_mark fun junk => (Recasts.loop recasts_skipRound 0).bind fun _ =>
      (recasts_fault junk tooDeep).bind fun _ => .pure true

/-- A level is entered in both readings or in none. -/
theorem pairs_enter (inStep : InStep parser parser' level value target) :
    Pairs (withBuilder Builder.enter) (withBuilder Builder.enter) parser parser' value target
      fun entered entered' value target => entered' = entered ∧
        if entered then level < Builder.maxDepth ∧ InStep parser parser' (level + 1) value target
        else InStep parser parser' level value target := by
  have deep : value.depth = level := inStep.since.depth
  have deep' : target.depth = level := inStep.since'.depth
  refine .withBuilder ?_
  simp only [Builder.enter, deep, deep']
  split
  · exact ⟨rfl, inStep⟩
  · exact ⟨rfl, Nat.not_le.1 ‹_›, inStep.atOtherDepth (level + 1)⟩

theorem recasts_exit {answer : α} (inStep : InStep parser parser' (level + 1) value target) :
    Pairs (do onBuilder Builder.exit; pure answer) (do onBuilder Builder.exit; pure answer) parser parser' value target
      fun answer answer' value target => answer' = answer ∧ InStep parser parser' level value target := by
  have deep : value.depth - 1 = level := congrArg (· - 1) inStep.since.depth
  have deep' : target.depth - 1 = level := congrArg (· - 1) inStep.since'.depth
  refine Pairs.bind (.withBuilder (?_ : InStep parser parser' level _ _))
    fun _ _ _ _ inStep => .pure ⟨rfl, inStep⟩
  simp only [Builder.exit, deep, deep']
  exact inStep.atOtherDepth level

/-- What is read the same one level deeper is read the same, and so are tokens that are passed where that is too
deep. -/
theorem recasts_nest {rule rule' : ParseM Bool}
    (recasts : level < Builder.maxDepth → Recasts parser parser' (level + 1) rule rule') :
    Recasts parser parser' level (nest rule) (nest rule') := by
  intro value target inStep
  refine (pairs_enter inStep).bind ?_
  rintro _ entered value target ⟨rfl, entry⟩
  cases entered with
  | false => exact recasts_skipTooDeep value target entry
  | true =>
      obtain ⟨shallow, deeper⟩ := entry
      exact (recasts shallow).continue_with deeper fun _ _ _ deeper => recasts_exit deeper

end
end Grammar
end StarlarkSyntax
