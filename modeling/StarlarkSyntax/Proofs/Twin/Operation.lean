import StarlarkSyntax.Proofs.Twin.Chain
/-!
# Operations side by side

The ladder of operators. What a rule of the ladder finds is of at least its own level, because its left
operand is, and each operator that follows makes an operation of just that level.
-/

set_option autoImplicit false

namespace StarlarkSyntax.Grammar

open Twin Shape
open Layout (Piece)

variable {pair : Pair} {nested : Nested} {twin start : Twin pair} {marker marker' : Marker}

/-- Whether an operator comes is seen without looking beyond the end of the statement. -/
theorem agree_operator (level : Precedence) {post : Option Nat → Option Nat → Twin pair → Prop}
    (holds : post (level.operatorLength? twin.next? (secondKind twin.ahead))
      (level.operatorLength? twin.next? (secondKind twin.ahead)) twin) :
    Agree (look fun builder => level.operatorLength? (builder.nth? 0) (builder.nth? 1))
      (look fun builder => level.operatorLength? (builder.nth? 0) (builder.nth? 1)) twin post := by
  intro bounded
  have seen {tail : List Piece} (whole : (∀ piece ∈ twin.ahead, piece.1 ≠ .statementBreak) → tail = []) :
      level.operatorLength? ((twin.ahead ++ tail)[0]?.map Prod.fst)
        ((twin.ahead ++ tail)[1]?.map Prod.fst) =
      level.operatorLength? twin.next? (secondKind twin.ahead) := by
    unfold next?
    cases ahead : twin.ahead with
    | nil =>
        rw [whole (by rw [ahead]; nofun)]
        rfl
    | cons first more =>
        cases more with
        | cons second more => rfl
        | nil =>
            by_cases is : first.1 = .statementBreak
            · show level.operatorLength? (some first.1) _ = level.operatorLength? (some first.1) _
              rw [is]
              cases level <;> rfl
            · rw [whole (by rw [ahead]; simpa using is)]
              rfl
  have whole : (∀ piece ∈ twin.ahead, piece.1 ≠ .statementBreak) →
      pair.leftTail = [] ∧ pair.rightTail = [] := fun unbroken =>
    bounded.resolve_right fun ⟨piece, mem, is⟩ => unbroken piece mem is
  have left : level.operatorLength? (twin.left.parser.builder.nth? 0)
      (twin.left.parser.builder.nth? 1) =
        level.operatorLength? twin.next? (secondKind twin.ahead) := by
    rw [nth?_eq, nth?_eq, twin.leftRest, seen fun unbroken => (whole unbroken).1]
  have right : level.operatorLength? (twin.right.parser.builder.nth? 0)
      (twin.right.parser.builder.nth? 1) =
        level.operatorLength? twin.next? (secondKind twin.ahead) := by
    rw [nth?_eq, nth?_eq, twin.rightRest, seen fun unbroken => (whole unbroken).2]
  exact abreast_look (right.trans left.symm) ⟨bounded, rfl, left ▸ holds⟩

/-- Operands and the operator between them. -/
theorem wellFormed_binary {operator : List Piece} {level : Nat} {left right : Shape}
    (is : operatorLevel? (operator.map Prod.fst) = some level) (first : left.isExpression = true)
    (second : right.isExpression = true) :
    (Shape.node .binaryExpression none ([left] ++ (operator.map Shape.token ++ [right]))).WellFormed := by
  have operator : operator.map Shape.token ∈ Form.operator := ⟨operator, rfl, by rw [is]; rfl⟩
  rw [← List.append_assoc]
  exact Language.append_mem_mul (Language.append_mem_mul (Form.expression_mem first) operator)
    (Form.expression_mem second)

/-- What there is so far becomes the left operand of an operator that has been passed. -/
theorem agree_rightOperand (operator : List Piece) {level : Precedence} {right : ParseM Bool}
    {least : Nat} {middle : Twin pair} {post : Bool × Marker → Bool × Marker → Twin pair → Prop}
    (opened : Open start marker marker' true (Operand level.number true) twin)
    (is : operatorLevel? (operator.map Prod.fst) = some level.number)
    (passed : Grown twin true (· = operator.map Shape.token) middle)
    (yields : Yields pair right (Operand least)) (lt : level.number < least)
    (holds : ∀ wrapper wrapper' after,
      Open start wrapper wrapper' true (Operand level.number true) after →
      after.ahead.length < twin.ahead.length → post (true, wrapper) (true, wrapper') after) :
    Agree (do require expectedExpression right; pure (true, ← wrap marker .binaryExpression))
      (do require expectedExpression right; pure (true, ← wrap marker' .binaryExpression)) middle
      post := by
  refine (yields.require _).bind fun _ after operand => ?_
  have passed' := passed.trans operand
  refine .bind (agree_wrap (opened.grow passed') ?_ fun wrapper wrapper' after opened here => ?_)
  · rintro _ ⟨_, _, rfl, ⟨left, rfl, leftLevel, first⟩, _, _, rfl, rfl, right, rfl, rightLevel, second⟩
    refine ⟨wellFormed_binary is first second, ⟨left, operator, right, level.number, rfl, is, ?_⟩, trivial⟩
    rw [Admits, if_neg level.number_ne_power]
    exact ⟨leftLevel, Nat.lt_of_lt_of_le lt rightLevel⟩
  · refine agree_pure (holds wrapper wrapper' after (opened.mono id ?_) (here ▸ passed'.shorter))
    rintro _ ⟨_, rfl, _, _, rfl, ⟨left, rfl, -, first⟩, _, _, rfl, rfl, right, rfl, -, second⟩
    exact ⟨_, rfl, (level_binary (tokenKind?_of_isExpression first) (tokenKind?_of_isExpression second) is).ge,
      rfl⟩

/-- Operands with operators of one level between them. -/
theorem yields_leftAssociative {level : Precedence} {left right : ParseM Bool} {leftLeast rightLeast : Nat}
    (yields : Yields pair left (Operand leftLeast)) (le : level.number ≤ leftLeast)
    (yields' : Yields pair right (Operand rightLeast)) (lt : level.number < rightLeast) :
    Yields pair (leftAssociative level left right) (Operand level.number) := by
  intro twin
  refine .bind (agree_mark fun marker marker' _ opened _ => ?_)
  refine yields.bind fun found middle grown => ?_
  have opened := (opened.first grown).mono id fun _ => Operand.mono le
  cases found with
  | false => exact .bind (agree_drop opened fun _ grown _ => agree_pure ⟨rfl, grown⟩)
  | true =>
      refine .bind (agree_loop (fun marker marker' middle =>
        Open twin marker marker' true (Operand level.number true) middle) ?_ opened)
      intro marker marker' middle opened
      refine .bind (agree_operator level ?_)
      split <;> rename_i found
      · refine agree_pure ⟨rfl, ?_⟩
        exact .bind (agree_drop opened fun _ grown _ => agree_pure ⟨rfl, grown⟩)
      · obtain ⟨first, next⟩ : ∃ first, middle.next? = some first := by
          cases next : middle.next? with
          | none =>
              rw [next] at found
              cases found
          | some first => exact ⟨first, rfl⟩
        rw [next] at found
        refine .bind (agree_advance next (Precedence.goesOn_of_operatorLength? found)
          fun body after passed here => ?_)
        rcases Precedence.operatorLevel?_eq found with ⟨rfl, is⟩ | ⟨rfl, second, next', goesOn, is⟩
        · exact agree_rightOperand [(first, body)] opened is passed yields' lt
            fun _ _ _ opened shorter => ⟨rfl, opened, shorter⟩
        · refine .bind (agree_advance (by rw [next?, here]; exact next') goesOn
            fun body' after passed' here => ?_)
          refine agree_rightOperand [(first, body), (second, body')] opened is
            ((passed.trans passed').mono id ?_) yields' lt
            fun _ _ _ opened shorter => ⟨rfl, opened, shorter⟩
          rintro _ ⟨_, _, rfl, rfl, rfl⟩
          rfl

theorem mem_signs {kind : Kind} :
    kind ∈ signs ↔ kind ∈ [Kind.operator .plus, .operator .minus, .operator .tilde] := by
  simp [signs, or_left_comm]

/-- An operator before its operand. -/
theorem agree_prefixed {operand : ParseM Bool} {kind : Kind} {least level : Nat}
    (next : twin.next? = some kind) (goesOn : kind ≠ .statementBreak)
    (yields : Yields pair operand (Operand least))
    (fits : kind = .reserved .notWord ∧ 3 ≤ least ∨ kind ∈ signs ∧ 11 ≤ least)
    (is : ∀ body right, level ≤ (Shape.node .prefixExpression none [.token (kind, body), right]).level) :
    Agree (prefixed operand) (prefixed operand) twin fun found found' after =>
      found = found' ∧ Grown twin found (Operand level found) after := by
  refine .bind (agree_mark fun expression expression' _ opened here => ?_)
  refine .bind (agree_advance ((next?_congr here).trans next) goesOn fun body _ operator _ => ?_)
  refine (yields.require _).bind fun _ _ right => ?_
  refine agree_done_true ((opened.first operator).grow right) ?_ ?_ fun _ _ => rfl
  · rintro _ ⟨_, _, rfl, rfl, right, rfl, rightLevel, operand⟩
    refine ⟨?_, ⟨(kind, body), right, rfl, ?_⟩, trivial⟩
    · refine Language.append_mem_mul (Form.oneOf_of_token (Form.token_mem kind body) ?_)
        (Form.expression_mem operand)
      rcases fits with ⟨rfl, -⟩ | ⟨mem, -⟩
      · exact List.mem_cons_self
      · exact List.mem_cons_of_mem _ (mem_signs.1 mem)
    · exact fits.imp (.imp id (Nat.le_trans · rightLevel)) (.imp mem_signs.1 (Nat.le_trans · rightLevel))
  · rintro _ ⟨_, _, rfl, rfl, right, rfl, -⟩
    exact is body right

theorem operatorLevel?_power (body : List Char) :
    operatorLevel? ([(.operator .starStar, body)].map Prod.fst) = some powerLevel := rfl

theorem yields_power (agrees : Agrees pair nested) (target : Bool) :
    Yields pair (power nested target) (Operand powerLevel) := by
  intro twin
  refine .bind (agree_mark fun expression expression' _ opened _ => ?_)
  refine (yields_member agrees target).bind fun found _ base => ?_
  have opened := opened.first base
  cases found with
  | false => exact .bind (agree_drop opened fun _ grown _ => agree_pure ⟨rfl, grown⟩)
  | true =>
      refine .bind (agree_matches nofun (fun body _ stars => ?_) fun _ => ?_)
      · have exponent : Yields pair (nested (.exponent target)) (Operand 11) :=
          fun _ => agrees.at (.exponent target) trivial
        refine (exponent.require _).bind fun _ _ right => ?_
        refine agree_done_true (opened.grow (stars.trans right)) ?_ ?_ fun _ _ => rfl
        · rintro _ ⟨_, _, rfl, ⟨base, rfl, baseLevel, first⟩, _, _, rfl, rfl, right, rfl, rightLevel, second⟩
          refine ⟨wellFormed_binary (operatorLevel?_power body) first second,
            ⟨base, [(.operator .starStar, body)], right, powerLevel, rfl, rfl, ?_⟩, trivial⟩
          rw [Admits, if_pos rfl]
          exact ⟨Nat.le_antisymm base.level_le baseLevel, rightLevel⟩
        · rintro _ ⟨_, _, rfl, ⟨base, rfl, -, first⟩, _, _, rfl, rfl, right, rfl, -, second⟩
          exact (level_binary (tokenKind?_of_isExpression first) (tokenKind?_of_isExpression second)
            (operatorLevel?_power body)).ge
      · refine .bind (agree_drop opened fun _ grown _ => agree_pure ⟨rfl, ?_⟩)
        exact grown.mono id fun _ => Operand.mono (by decide)

theorem yields_unary (agrees : Agrees pair nested) (target : Bool) :
    Yields pair (unary nested target) (Operand 11) := by
  intro twin
  refine .bind (agree_isAtAny (fun sign mem next => ?_) fun _ => ?_)
  · exact agrees.at (.signed target) ⟨sign, mem, next⟩
  · exact (yields_power agrees target).mono (fun _ _ => Operand.mono (by decide)) twin

/-- An operand with or without stars of some sort before it. -/
theorem agree_starred {symbol : Operator} {kind : NodeKind} {operand : ParseM Bool} {least : Nat}
    {fine : Bool → List Shape → Prop} (yields : Yields pair operand (Operand least))
    (binds : ∀ body right, least ≤ right.level → right.isExpression = true →
      (Shape.node kind none [.token (.operator symbol, body), right]).WellMade)
    (sort : ∀ made, fine true [.node kind none made])
    (others : twin.next? ≠ some (.operator symbol) → ∀ found made, Operand least found made → fine found made) :
    Agree (starred symbol kind operand) (starred symbol kind operand) twin
      fun found found' after => found = found' ∧ Grown twin found (fine found) after := by
  refine .bind (agree_isAt (fun next => ?_) fun none => ?_)
  · refine .bind (agree_mark fun expression expression' _ opened here => ?_)
    replace next := (next?_congr here).trans next
    refine .bind (agree_advance next (by rintro ⟨⟩) fun body _ star _ => ?_)
    refine yields.bind fun found _ right => ?_
    have opened := (opened.first star).grow right
    cases found with
    | true =>
        refine .bind (agree_done opened ?_ fun _ grown _ => agree_pure ⟨rfl, grown.node fun made _ => sort made⟩)
        rintro _ ⟨_, _, rfl, rfl, right, rfl, level, is⟩
        exact binds body right level is
    | false =>
        refine .bind (agree_missing fun _ missed _ => ?_)
        refine .bind (agree_drop (opened.spoil missed) fun _ grown _ => agree_pure ⟨rfl, ?_⟩)
        exact grown.mono nofun fun _ => False.elim
  · exact (yields.mono (others none)) twin

/-! ## The levels of binary operators -/

section Ladder

variable (agrees : Agrees pair nested) (target : Bool)

include agrees

theorem yields_multiplicative : Yields pair (multiplicative nested target) (Operand 10) :=
  yields_leftAssociative (yields_unary agrees target) (by decide) (yields_unary agrees target)
    (by decide)

theorem yields_additive : Yields pair (additive nested target) (Operand 9) :=
  yields_leftAssociative (yields_multiplicative agrees target) (by decide)
    (yields_multiplicative agrees target) (by decide)

theorem yields_shift : Yields pair (shift nested target) (Operand 8) :=
  yields_leftAssociative (yields_additive agrees target) (by decide) (yields_additive agrees target)
    (by decide)

theorem yields_bitAnd : Yields pair (bitAnd nested target) (Operand 7) :=
  yields_leftAssociative (yields_shift agrees target) (by decide) (yields_shift agrees target)
    (by decide)

theorem yields_bitXor : Yields pair (bitXor nested target) (Operand 6) :=
  yields_leftAssociative (yields_bitAnd agrees target) (by decide) (yields_bitAnd agrees target)
    (by decide)

theorem yields_bitOr : Yields pair (bitOr nested target) (Operand 5) :=
  yields_leftAssociative (yields_bitXor agrees target) (by decide) (yields_bitXor agrees target)
    (by decide)

theorem yields_starExpression : Yields pair (starExpression nested target) (Operand 4) := fun _ =>
  agree_starred (yields_bitOr agrees target)
    (fun body right level is => ⟨Language.append_mem_mul (Form.token_mem _ body) (Form.expression_mem is),
      ⟨_, right, rfl, rfl, level⟩, trivial⟩)
    (fun _ => ⟨_, rfl, Nat.le_refl 4, rfl⟩) fun _ _ _ => Operand.mono (by decide)

/-- Where two stars come, an entry of a dictionary is found. -/
theorem agree_doubleStar (next : twin.next? = some (.operator .starStar)) :
    Agree (doubleStar nested) (doubleStar nested) twin fun found found' after =>
      found = found' ∧ Grown twin found (Found (Form.node .doubleStarExpression) found) after :=
  agree_starred (yields_bitOr agrees false)
    (fun body _ _ is => ⟨Language.append_mem_mul (Form.token_mem _ body) (Form.expression_mem is),
      trivial, trivial⟩)
    (fun _ => Form.node_mem _ _) fun none => absurd next none

theorem yields_comparison : Yields pair (comparison nested target) (Operand 4) :=
  yields_leftAssociative (yields_starExpression agrees target) (by decide)
    (yields_bitOr agrees target) (by decide)

theorem yields_negation : Yields pair (negation nested target) (Operand 3) := by
  intro twin
  refine .bind (agree_isAt (fun next => ?_) fun _ => ?_)
  · exact agrees.at (.negation target) next
  · exact (yields_comparison agrees target).mono (fun _ _ => Operand.mono (by decide)) twin

theorem yields_conjunction : Yields pair (conjunction nested target) (Operand 2) :=
  yields_leftAssociative (yields_negation agrees target) (by decide) (yields_negation agrees target)
    (by decide)

theorem yields_operation : Yields pair (operation nested target) (Operand 1) :=
  yields_leftAssociative (yields_conjunction agrees target) (by decide)
    (yields_conjunction agrees target) (by decide)

end Ladder

end StarlarkSyntax.Grammar
