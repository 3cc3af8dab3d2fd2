import StarlarkSyntax.Proofs.Checked.Basic
import StarlarkSyntax.Proofs.Progress.Basic
/-!
# Checked rules do what rules do

A checked rule `Matches` a rule from some state on if it gives what the rule gives there, and leaves
the same parser: then none of its assertions has failed. Whether the rule ends is no question here,
so a loop needs no measure: what it gives it has given after some number of rounds (`goOn_induct`).
-/

set_option autoImplicit false

namespace StarlarkSyntax

/-! ## Computations that give something -/

section Computation

variable {σ α β : Type}

theorem bind_eq_some {rule : StateT σ Option α} {more : α → StateT σ Option β} {state : σ}
    {result : β × σ} : (rule >>= more) state = some result ↔
      ∃ answer next, rule state = some (answer, next) ∧ more answer next = some result := by
  change (rule state).bind _ = _ ↔ _
  rw [Option.bind_eq_some_iff]
  constructor
  · rintro ⟨⟨answer, next⟩, ran, rest⟩
    exact ⟨answer, next, ran, rest⟩
  · rintro ⟨answer, next, ran, rest⟩
    exact ⟨(answer, next), ran, rest⟩

/-- What a repeated rule gives, it gives after some rounds that said to go on and a last one that did
not. -/
theorem goOn_induct {rule : σ → ParseM (Bool × σ)}
    (holds : ParseM (Bool × σ) → Parser → σ → Parser → Prop)
    (last : ∀ round parser state next, round parser = some ((false, state), next) →
      holds round parser state next)
    (again : ∀ round parser state next answer final, round parser = some ((true, state), next) →
      holds (rule state) next answer final → holds round parser answer final)
    (round : ParseM (Bool × σ)) (parser : Parser) (answer : σ) (final : Parser)
    (ran : round.goOn rule parser = some (answer, final)) : holds round parser answer final := by
  refine ParseM.goOn.partial_correctness rule
    (fun round parser result => holds round parser result.1 result.2) ?_ round parser
    (answer, final) ran
  intro goOn ih round parser (answer, final) ran
  obtain ⟨⟨⟨goesOn, state⟩, next⟩, first, rest⟩ := Option.bind_eq_some_iff.1 ran
  cases goesOn with
  | false =>
      cases rest
      exact last round parser answer final first
  | true => exact again round parser state next answer final first (ih _ _ _ rest)

end Computation

namespace Checked

open Grammar (Ends)

/-! ## Matching -/

/-- What a rule gives from a state on, the checked rule gives as well. -/
def Matches {α β : Type} (checked : CheckedM α) (rule : ParseM β) (watched : Watched)
    (after : α → β → Watched → Prop) : Prop :=
  ∀ answer parser, rule watched.parser = some (answer, parser) →
    ∃ given next, checked watched = some (given, next) ∧ next.parser = parser ∧
      after given answer next

namespace Matches

variable {α β γ δ : Type} {checked : CheckedM α} {rule : ParseM β} {watched : Watched}
  {after : α → β → Watched → Prop}

theorem mono {after' : α → β → Watched → Prop} (here : Matches checked rule watched after)
    (implies : ∀ given answer next, after given answer next → after' given answer next) :
    Matches checked rule watched after' := by
  intro answer parser ran
  obtain ⟨given, next, ran', same, holds⟩ := here answer parser ran
  exact ⟨given, next, ran', same, implies given answer next holds⟩

theorem pure {given : α} {answer : β} (holds : after given answer watched) :
    Matches (Pure.pure given) (Pure.pure answer) watched after := by
  rintro _ _ ⟨⟩
  exact ⟨given, watched, rfl, rfl, holds⟩

theorem bind {more : α → CheckedM γ} {more' : β → ParseM δ} {after' : γ → δ → Watched → Prop}
    (here : Matches checked rule watched after)
    (continues : ∀ given answer next, after given answer next →
      Matches (more given) (more' answer) next after') :
    Matches (checked >>= more) (rule >>= more') watched after' := by
  intro result parser ran
  obtain ⟨answer, between, first, rest⟩ := bind_eq_some.1 ran
  obtain ⟨given, next, first', rfl, holds⟩ := here answer between first
  obtain ⟨result', last, rest', same, holds'⟩ := continues given answer next holds result parser rest
  exact ⟨result', last, bind_eq_some.2 ⟨given, next, first', rest'⟩, same, holds'⟩

theorem ite {claim : Prop} [Decidable claim] {checked' : CheckedM α} {rule' : ParseM β}
    (yes : claim → Matches checked rule watched after)
    (no : ¬claim → Matches checked' rule' watched after) :
    Matches (if claim then checked else checked') (if claim then rule else rule') watched after := by
  split
  · exact yes ‹_›
  · exact no ‹_›

/-- An assertion that holds. -/
theorem assert {claim : Watched → Bool} (holds : claim watched = true)
    {more : Unit → CheckedM α} (here : Matches (more ()) rule watched after) :
    Matches (Checked.assert claim >>= more) rule watched after := by
  intro answer parser ran
  obtain ⟨given, next, ran', found⟩ := here answer parser ran
  refine ⟨given, next, bind_eq_some.2 ⟨(), watched, ?_, ran'⟩, found⟩
  rw [Checked.assert, if_pos holds]

/-- What is known to hold after the rule. -/
theorem with_ends {known : β → Parser → Prop} (here : Matches checked rule watched after)
    (ends : Ends rule watched.parser known) :
    Matches checked rule watched fun given answer next =>
      after given answer next ∧ known answer next.parser := by
  intro answer parser ran
  obtain ⟨given, next, ran', rfl, holds⟩ := here answer parser ran
  obtain ⟨_, _, ran'', known⟩ := ends
  cases ran.symm.trans ran''
  exact ⟨given, next, ran', rfl, holds, known⟩

/-- What a checked rule gives where the rule is known to end. -/
theorem given {known : β → Parser → Prop} (here : Matches checked rule watched after)
    (ends : Ends rule watched.parser known) :
    ∃ given answer next, rule watched.parser = some (answer, next.parser) ∧
      checked watched = some (given, next) ∧ after given answer next ∧ known answer next.parser := by
  obtain ⟨answer, parser, ran, known⟩ := ends
  obtain ⟨given, next, ran', rfl, holds⟩ := here answer parser ran
  exact ⟨given, answer, next, ran, ran', holds, known⟩

/-- A repeated rule matches if each of its rounds does, and all of them together keep an
invariant. -/
theorem loop {σ τ : Type} {rule : σ → CheckedM (Bool × σ)} {rule' : τ → ParseM (Bool × τ)}
    (invariant after : σ → τ → Watched → Prop)
    (round : ∀ state state' watched, invariant state state' watched →
      Matches (rule state) (rule' state') watched fun given answer next =>
        given.1 = answer.1 ∧
          if answer.1 then invariant given.2 answer.2 next else after given.2 answer.2 next)
    {state : σ} {state' : τ} (holds : invariant state state' watched) :
    Matches (Checked.loop rule state) (Grammar.loop rule' state') watched after := by
  intro answer parser ran
  refine goOn_induct (fun round parser answer final => ∀ checked watched,
    watched.parser = parser → Matches checked round watched (fun given answer next =>
      given.1 = answer.1 ∧
        if answer.1 then invariant given.2 answer.2 next else after given.2 answer.2 next) →
    ∃ given next, CheckedM.goOn rule checked watched = some (given, next) ∧ next.parser = final ∧
      after given answer next) ?_ ?_ _ _ _ _ ran _ watched rfl (round state state' watched holds)
  · rintro round parser state next ran checked watched rfl here
    obtain ⟨⟨_, given⟩, last, ran', same, rfl, holds⟩ := here _ _ ran
    refine ⟨given, last, ?_, same, holds⟩
    rw [CheckedM.goOn]
    exact bind_eq_some.2 ⟨_, last, ran', rfl⟩
  · rintro round' parser state next answer final ran ih checked watched rfl here
    obtain ⟨⟨_, given⟩, last, ran', same, rfl, holds⟩ := here _ _ ran
    obtain ⟨given', last', ran'', found⟩ := ih _ last same (round given state last holds)
    refine ⟨given', last', ?_, found⟩
    rw [CheckedM.goOn]
    exact bind_eq_some.2 ⟨_, last, ran', ran''⟩

end Matches

end Checked
end StarlarkSyntax
