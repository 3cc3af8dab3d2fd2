import StarlarkSyntax.Proofs.Progress.Basic
import StarlarkSyntax.Proofs.Twin.Line
/-!
# Rules within a line

What two readings of one line have in common is said of a rule in one of two ways. A rule that may find
nothing `Yields` what it should if it finds the same in both texts and passes a token where it finds
something; any other rule `Runs` in both. Expressions are `Operand`s: one shape of at least some level, or
nothing at all. What else is made is a word of some language.
-/

set_option autoImplicit false

namespace StarlarkSyntax

open Twin Shape

namespace Grammar

/-- One expression of at least some level, or nothing. -/
def Operand (least : Nat) (found : Bool) (made : List Shape) : Prop :=
  if found then ∃ shape, made = [shape] ∧ least ≤ shape.level ∧ shape.isExpression = true else made = []

theorem Operand.mono {least less : Nat} (le : less ≤ least) {found : Bool} {made : List Shape}
    (operand : Operand least found made) : Operand less found made := by
  cases found with
  | false => exact operand
  | true =>
      obtain ⟨shape, made, level, is⟩ := operand
      exact ⟨shape, made, Nat.le_trans le level, is⟩

/-- What was found is an expression. -/
theorem Operand.expression {least : Nat} {made : List Shape} (operand : Operand least true made) :
    made ∈ Form.expression := by
  obtain ⟨shape, made, -, is⟩ := operand
  exact ⟨shape, made, is⟩

/-- A word of a language, or nothing. -/
def Found (form : Language Shape) : Bool → List Shape → Prop
  | true => (· ∈ form)
  | false => (· = [])

/-- Tokens were found, or none. -/
theorem Found.tokens {found : Bool} {made : List Shape} (holds : Found Form.tokens found made) :
    made ∈ Form.tokens := by
  cases found with
  | true => exact holds
  | false => exact (show made = [] from holds) ▸ Form.tokens_nil

end Grammar

namespace Twin

variable {pair : Pair} {start middle after : Twin pair} {marker marker' : Marker}
  {passed passed' : Bool} {form form' : Language Shape} {kind : Kind} {body : List Char}

/-- A word of another language was added as well. -/
theorem Grown.mul (first : Grown start passed (· ∈ form) middle)
    (second : Grown middle passed' (· ∈ form') after) :
    Grown start (passed || passed') (· ∈ form * form') after :=
  first.append second fun _ _ => Language.append_mem_mul

/-- A word of another language stands in the frame as well. -/
theorem Open.mul (opened : Open start marker marker' passed (· ∈ form) middle)
    (grown : Grown middle passed' (· ∈ form') after) :
    Open start marker marker' (passed || passed') (· ∈ form * form') after :=
  opened.append grown fun _ _ => Language.append_mem_mul

/-- A token of a kind was added. -/
theorem Grown.token (grown : Grown start passed (· = [.token (kind, body)]) after) :
    Grown start passed (· ∈ Form.token kind) after :=
  grown.mono id fun _ is => is ▸ Form.token_mem kind body

/-- An expression was added. -/
theorem Grown.expression {least : Nat} (grown : Grown start passed (Grammar.Operand least true) after) :
    Grown start passed (· ∈ Form.expression) after :=
  grown.mono id fun _ => Grammar.Operand.expression

/-- A frame that has been opened holds the word without letters. -/
theorem Open.one (opened : Open start marker marker' passed (· = []) after) :
    Open start marker marker' passed (· ∈ (1 : Language Shape)) after :=
  opened.mono id fun _ none => none

/-- Nothing was added, which is the word without letters. -/
theorem Grown.one (grown : Grown start passed (· = []) after) :
    Grown start passed (· ∈ (1 : Language Shape)) after :=
  grown.mono id fun _ none => none

/-- What was added may be left out, and is not. -/
theorem Grown.optional (grown : Grown start passed (· ∈ form) after) :
    Grown start passed (· ∈ Form.optional form) after :=
  grown.mono id fun _ => Form.optional_of

/-- Nothing was added, and need not be. -/
theorem Grown.omitted (grown : Grown start passed (· = []) after) :
    Grown start passed (· ∈ Form.optional form) after :=
  grown.mono id fun _ none => none ▸ Form.optional_nil form

end Twin

namespace Grammar

section

variable (pair : Pair) {α : Type}

/-- The rule finds the same in both texts. -/
def Yields (rule : ParseM Bool) (fine : Bool → List Shape → Prop) : Prop :=
  ∀ twin : Twin pair, Agree rule rule twin fun found found' after =>
    found = found' ∧ Grown twin found (fine found) after

/-- The rule does the same in both texts. -/
def Runs (rule : ParseM α) (fine : List Shape → Prop) : Prop :=
  ∀ twin : Twin pair, Agree rule rule twin fun answer answer' after =>
    answer = answer' ∧ Grown twin false fine after

end

variable {pair : Pair} {α β σ : Type} {start twin : Twin pair} {rule : ParseM Bool}
  {fine : Bool → List Shape → Prop} {message : String} {kind : Kind}

theorem Yields.mono {fine' : Bool → List Shape → Prop} (yields : Yields pair rule fine)
    (weaker : ∀ found made, fine found made → fine' found made) : Yields pair rule fine' :=
  fun twin => (yields twin).mono fun found _ _ ⟨same, grown⟩ =>
    ⟨same, grown.mono id (weaker found)⟩

theorem Yields.bind {next next' : Bool → ParseM α} {post : α → α → Twin pair → Prop}
    (yields : Yields pair rule fine)
    (agree : ∀ found after, Grown twin found (fine found) after →
      Agree (next found) (next' found) after post) : Agree (rule >>= next) (rule >>= next') twin post := by
  refine .bind ((yields twin).mono ?_)
  rintro found _ after ⟨rfl, grown⟩
  exact agree found after grown

theorem Runs.bind {rule : ParseM α} {next next' : α → ParseM β} {fine : List Shape → Prop}
    {post : β → β → Twin pair → Prop} (runs : Runs pair rule fine)
    (agree : ∀ answer after, Grown twin false fine after →
      Agree (next answer) (next' answer) after post) :
    Agree (rule >>= next) (rule >>= next') twin post := by
  refine .bind ((runs twin).mono ?_)
  rintro answer _ after ⟨rfl, grown⟩
  exact agree answer after grown

/-- If nothing is said to be missing, it was found. -/
theorem agree_require (agree : Agree rule rule twin fun found found' after =>
      found = found' ∧ Grown twin found (fine found) after) :
    Agree (require message rule) (require message rule) twin fun answer answer' after =>
      answer = answer' ∧ Grown twin false (fine true) after := by
  refine .bind (agree.mono ?_)
  rintro found _ after ⟨rfl, grown⟩
  cases found with
  | true => exact agree_pure ⟨rfl, grown.mono nofun fun _ => id⟩
  | false =>
      refine agree_missing fun last missed _ => ⟨rfl, (grown.trans missed).mono nofun ?_⟩
      rintro _ ⟨_, _, -, -, ⟨⟩⟩

theorem Yields.require (yields : Yields pair rule fine) (message : String) :
    Runs pair (require message rule) (fine true) :=
  fun twin => agree_require (yields twin)

/-! ## Nodes of their own -/

/-- A node is made, and that is what was looked for. -/
theorem agree_done_true {marker marker' : Marker} {fine : List Shape → Prop} {kind : NodeKind}
    {least : Nat} (opened : Open start marker marker' true fine twin)
    (binds : ∀ made, fine made → (Shape.node kind none made).WellMade)
    (level : ∀ made, fine made → least ≤ (Shape.node kind none made).level)
    (is : ∀ made, fine made → (Shape.node kind none made).isExpression = true) :
    Agree (do done marker kind; pure true) (do done marker' kind; pure true) twin
      fun found found' after => found = found' ∧ Grown start found (Operand least found) after := by
  refine .bind (agree_done opened binds fun after grown _ => agree_pure ⟨rfl, grown.mono id ?_⟩)
  rintro _ ⟨made, rfl, holds⟩
  exact ⟨_, rfl, level made holds, is made holds⟩

theorem agree_tokenNode {node : NodeKind} (next : twin.next? = some kind)
    (goesOn : kind ≠ .statementBreak) {post : Unit → Unit → Twin pair → Prop}
    (binds : ∀ body, (Shape.node node none [.token (kind, body)]).WellMade)
    (holds : ∀ after,
      Grown twin true (fun all => ∃ body, all = [.node node none [.token (kind, body)]]) after →
      post () () after) : Agree (tokenNode node) (tokenNode node) twin post := by
  refine .bind (agree_mark fun marker marker' _ opened here => ?_)
  refine .bind (agree_advance ((next?_congr here).trans next) goesOn fun body _ grown _ => ?_)
  refine agree_done (opened.first grown) (fun made is => is ▸ binds body) fun after grown _ => ?_
  exact holds after (grown.node fun _ is => ⟨body, is ▸ rfl⟩)

theorem agree_emptyNode {node : NodeKind} {post : Unit → Unit → Twin pair → Prop}
    (binds : (Shape.node node none []).WellMade)
    (holds : ∀ after, Grown twin false (· = [.node node none []]) after → after.ahead = twin.ahead →
      post () () after) : Agree (emptyNode node) (emptyNode node) twin post := by
  refine .bind (agree_mark fun marker marker' _ opened here => ?_)
  refine agree_done opened (fun made is => is ▸ binds) fun after grown here' => ?_
  exact holds after (grown.node fun _ is => is ▸ rfl) (here'.trans here)

/-! ## Repetition -/

/-- A rule that is repeated, each round of which adds something, or at least passes a token when it
says to go on. -/
theorem runs_loop {rule : σ → ParseM (Bool × σ)} {fine : List Shape → Prop} [Joining fine]
    (round : ∀ state, ∀ twin : Twin pair, Agree (rule state) (rule state) twin
      fun answer answer' after => answer = answer' ∧ Grown twin answer.1 fine after) (state : σ) :
    Runs pair (loop rule state) fine := by
  intro twin
  refine agree_loop (fun state state' middle => state = state' ∧ Grown twin false fine middle) ?_
    ⟨rfl, (Grown.refl twin).nothing id⟩
  rintro state _ middle ⟨rfl, grown⟩
  refine (round state middle).mono ?_
  rintro ⟨goOn, state⟩ _ after ⟨rfl, more⟩
  cases goOn with
  | false => exact ⟨rfl, rfl, grown.join more⟩
  | true => exact ⟨rfl, ⟨rfl, (grown.join more).mono nofun fun _ => id⟩, more.shorter⟩

theorem runs_repeatWhile {fine : List Shape → Prop} [Joining fine] (yields : Yields pair rule fun _ => fine) :
    Runs pair (repeatWhile rule) fine :=
  runs_loop (fun _ _ => yields.bind fun _ _ grown => agree_pure ⟨rfl, grown⟩) ()

/-- Tokens are passed up to one of some kinds, of which the end of a statement is one. -/
theorem yields_skipUntil {stops : List Kind} (stop : Kind.statementBreak ∈ stops) :
    Yields pair (skipUntil stops) (Found Form.tokens) := by
  intro twin
  refine agree_loop (fun skipped skipped' middle => skipped = skipped' ∧
    Grown twin skipped (Found Form.tokens skipped) middle) ?_ ⟨rfl, .refl twin⟩
  rintro skipped _ middle ⟨rfl, grown⟩
  refine .bind (agree_atEnd (fun _ => ?_) fun kind next => ?_)
  · refine .bind (agree_isAtAny (fun _ _ _ => ?_) fun _ => ?_)
    all_goals exact agree_pure ⟨rfl, rfl, grown⟩
  · refine .bind (agree_isAtAny (fun _ _ _ => ?_) fun others => ?_)
    · exact agree_pure ⟨rfl, rfl, grown⟩
    refine .bind (agree_advance next ?_ fun body after more _ => agree_pure ?_)
    · rintro rfl
      exact others _ stop next
    · refine ⟨rfl, ⟨rfl, ?_⟩, more.shorter⟩
      exact (grown.append more.token fun _ _ found mem => Form.tokens_append found.tokens
        (Form.tokens_of_token mem)).mono (fun _ => Bool.or_true _) fun _ => id

/-! ## Nesting -/

/-- A round passes a token unless the statement ends. -/
theorem agree_skipRound (opened : Nat) (twin : Twin pair) :
    Agree (skipRound opened) (skipRound opened) twin fun answer answer' after => answer = answer' ∧
      Grown twin (answer.1 || twin.next?.any (· != .statementBreak)) Anything after := by
  refine .bind (agree_current? ?_)
  split <;> rename_i next
  · rw [next]
    exact agree_pure ⟨rfl, (Grown.refl twin).any id⟩
  · rw [next]
    exact agree_pure ⟨rfl, (Grown.refl twin).any id⟩
  · rename_i kind goesOn
    refine .bind (agree_advance next (fun is => goesOn (is ▸ rfl)) fun body after grown _ => ?_)
    exact agree_pure ⟨rfl, grown.any fun _ => rfl⟩

/-- Where the limit of nesting is reached, nothing is right any more. -/
theorem agree_skipTooDeep (twin : Twin pair) :
    Agree skipTooDeep skipTooDeep twin fun found found' after => found = found' ∧
      found = twin.next?.any skippable ∧ Grown twin found (fun _ => False) after := by
  have missed (none : twin.next?.any skippable = false) :
      Agree (do missing tooDeep; pure false) (do missing tooDeep; pure false) twin
        fun found found' after => found = found' ∧ found = twin.next?.any skippable ∧
          Grown twin found (fun _ => False) after :=
    .bind (agree_missing fun after grown _ => agree_pure ⟨rfl, none.symm, grown⟩)
  refine .bind (agree_current? ?_)
  split <;> rename_i next
  · exact missed (by rw [next]; rfl)
  · exact missed (by rw [next]; rfl)
  · exact missed (by rw [next]; rfl)
  · rename_i kind goesOn notClosing
    have skips : skippable kind = true := by
      unfold skippable
      split
      · exact absurd rfl goesOn
      · exact absurd rfl (notClosing _)
      · rfl
    refine .bind (agree_mark fun junk junk' start opened here => ?_)
    have next' : start.next? = some kind := (next?_congr here).trans next
    rw [loop_eq, bind_assoc, bind_assoc]
    refine .bind ((agree_skipRound 0 start).mono ?_)
    rintro ⟨goOn, depth⟩ _ middle ⟨rfl, first⟩
    have passed : Grown start true Anything middle := by
      refine first.any fun _ => ?_
      have goes : (kind != .statementBreak) = true := bne_iff_ne.2 fun is => goesOn (is ▸ rfl)
      rw [next', Option.any_some, goes, Bool.or_true]
    have ended {after : Twin pair} (grown : Grown start true Anything after) :
        Agree (do fault junk tooDeep; pure true) (do fault junk' tooDeep; pure true) after
          fun found found' after => found = found' ∧ found = twin.next?.any skippable ∧
            Grown twin found (fun _ => False) after :=
      .bind (agree_fault (opened.more grown) fun after grown _ =>
        agree_pure ⟨rfl, by rw [next, Option.any_some, skips], grown⟩)
    cases goOn with
    | false => exact ended passed
    | true =>
        have rounds : Runs pair (loop skipRound depth) Anything :=
          runs_loop (fun depth twin => (agree_skipRound depth twin).mono fun answer _ _ round =>
            round.imp_right (·.any fun goOn => by rw [goOn]; rfl)) depth
        exact rounds.bind fun _ after more => ended (passed.more more)

/-- A rule that is followed one level deeper finds the same if it does there. -/
theorem agree_nest {condition : Bool → Prop} (full : condition (twin.next?.any skippable))
    (deep : Agree rule rule (twin.placed (deeperPlace twin.place)) fun found found' after =>
      found = found' ∧ condition found ∧
        Grown (twin.placed (deeperPlace twin.place)) found (fine found) after) :
    Agree (nest rule) (nest rule) twin fun found found' after =>
      found = found' ∧ condition found ∧ Grown twin found (fine found) after := by
  intro bounded
  refine .bind (abreast_enter (fun _ => ?_) fun _ => ?_)
  · refine (agree_skipTooDeep twin bounded).mono ?_
    rintro found _ after ⟨bounded, place, same, rfl, grown⟩
    exact ⟨bounded, place, same, full, grown.mono id fun _ => False.elim⟩
  · refine .bind ((deep bounded).mono ?_)
    rintro found _ after ⟨bounded, place, rfl, holds, made, since, intact⟩
    refine .bind (abreast_exit (abreast_pure ⟨bounded, ?_, rfl, holds, made, ?_, intact⟩))
    · rw [place]
      rfl
    · exact since.of_placed.move _

end Grammar
end StarlarkSyntax
