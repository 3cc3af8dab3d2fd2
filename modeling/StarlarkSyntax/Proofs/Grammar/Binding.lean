import StarlarkSyntax.Grammar.Precedence
import StarlarkSyntax.Proofs.Grammar.Shape
/-!
# How tightly expressions bind

Each expression has a level: the looser it binds, the lower. What an operator may have for its operands
is said by levels alone. The operators of a level take their operands from the left, so the left one
may be of the same level and the right one has to bind tighter; only a power takes its operands from
the right, and its right one may have a sign.

`Shape.BindsTightly` says this of one node.
-/

set_option autoImplicit false

namespace StarlarkSyntax

open Layout (Piece)

/-- The level of the operator that is written with some tokens, if they are one. -/
def operatorLevel? : List Kind → Option Nat
  | [.reserved .orWord] => some 1
  | [.reserved .andWord] => some 2
  | [.operator .less] | [.operator .greater] | [.operator .equalEqual] | [.operator .bangEqual]
  | [.operator .lessEqual] | [.operator .greaterEqual] => some 4
  | [.reserved .inWord] | [.reserved .notWord, .reserved .inWord] => some 4
  | [.reserved .isWord] | [.reserved .isWord, .reserved .notWord] => some 4
  | [.operator .pipe] => some 5
  | [.operator .caret] => some 6
  | [.operator .ampersand] => some 7
  | [.operator .lessLess] | [.operator .greaterGreater] => some 8
  | [.operator .plus] | [.operator .minus] => some 9
  | [.operator .star] | [.operator .slash] | [.operator .slashSlash] | [.operator .percent] => some 10
  | [.operator .starStar] => some 12
  | _ => none

/-- The level of powers. -/
def powerLevel : Nat := 12

/-- The level of expressions that are no operations. -/
def primaryLevel : Nat := 13

namespace Precedence

/-- The level of the operators of a precedence. -/
def number : Precedence → Nat
  | disjunction => 1
  | conjunction => 2
  | comparison => 4
  | bitOr => 5
  | bitXor => 6
  | bitAnd => 7
  | shift => 8
  | additive => 9
  | multiplicative => 10

theorem number_ne_power (level : Precedence) : level.number ≠ powerLevel := by
  cases level <;> decide

/-- The tokens that are taken for an operator of a precedence are one of that level. -/
theorem operatorLevel?_eq {level : Precedence} {first : Kind} {next? : Option Kind} {length : Nat}
    (found : level.operatorLength? (some first) next? = some length) :
    length = 1 ∧ operatorLevel? [first] = some level.number ∨
      length = 2 ∧ ∃ second, next? = some second ∧ second ≠ .statementBreak ∧
        operatorLevel? [first, second] = some level.number := by
  cases level with
  | comparison =>
      simp only [operatorLength?, comparisonLength?] at found
      split at found
      · split at found <;> simp_all [operatorLevel?, number]
      · split at found <;> simp_all [operatorLevel?, number]
      all_goals simp_all [operatorLevel?, number]
  | _ =>
      simp only [operatorLength?, operators, List.contains_cons, List.contains_nil] at found
      refine .inl ?_
      grind [operatorLevel?, number]

theorem goesOn_of_operatorLength? {level : Precedence} {first : Kind} {next? : Option Kind}
    {length : Nat} (found : level.operatorLength? (some first) next? = some length) :
    first ≠ .statementBreak := by
  rintro rfl
  cases level <;> cases found

end Precedence

namespace Shape

/-- The kind of a token. -/
def tokenKind? : Shape → Option Kind
  | token piece => some piece.1
  | node .. => none

/-- The level of an expression. What is no expression has the lowest. -/
def level : Shape → Nat
  | token _ => 0
  | node kind _ children =>
    match kind with
    | .conditionalExpression | .lambdaExpression => 0
    | .binaryExpression => (operatorLevel? (children.filterMap tokenKind?)).getD 0
    | .prefixExpression =>
      if children.head?.bind tokenKind? = some (.reserved .notWord) then 3 else 11
    | .starExpression => 4
    | .argumentExpression | .callExpression | .dictCompExpression | .dictLiteralExpression
    | .doubleStarExpression | .emptyExpression | .floatLiteralExpression | .generatorExpression
    | .integerLiteralExpression | .keyValueExpression | .listCompExpression
    | .listLiteralExpression | .namedArgumentExpression | .parenthesizedExpression
    | .referenceExpression | .sliceExpression | .starArgumentExpression
    | .stringLiteralExpression | .subscriptionExpression | .targetExpression
    | .tupleExpression => primaryLevel
    | _ => 0

/-- Does a binary operator of a level have the operands that it may have? -/
def Admits (level : Nat) (left right : Shape) : Prop :=
  if level = powerLevel then left.level = primaryLevel ∧ 11 ≤ right.level
  else level ≤ left.level ∧ level < right.level

/-- Do the operands of an operator that a node stands for bind tightly enough? -/
def BindsTightly : Shape → Prop
  | node .binaryExpression _ children =>
    ∃ (left : Shape) (operator : List Piece) (right : Shape) (level : Nat),
      children = left :: operator.map token ++ [right] ∧
        operatorLevel? (operator.map Prod.fst) = some level ∧ Admits level left right
  | node .prefixExpression _ children =>
    ∃ (operator : Piece) (operand : Shape), children = [.token operator, operand] ∧
      (operator.1 = .reserved .notWord ∧ 3 ≤ operand.level ∨
        operator.1 ∈ [Kind.operator .plus, .operator .minus, .operator .tilde] ∧ 11 ≤ operand.level)
  | node .starExpression _ children =>
    ∃ (star : Piece) (operand : Shape), children = [.token star, operand] ∧ star.1 = .operator .star ∧ 5 ≤ operand.level
  | node .conditionalExpression _ children =>
    ∃ (value : Shape) (ifWord : Piece) (condition : Shape) (elseWord : Piece) (alternative : Shape),
      children = [value, .token ifWord, condition, .token elseWord, alternative] ∧
        ifWord.1 = .reserved .ifWord ∧ elseWord.1 = .reserved .elseWord ∧
        1 ≤ value.level ∧ 1 ≤ condition.level
  | _ => True

/-- The level of an operation is that of its operator. -/
theorem level_binary {message? : Option String} {left right : Shape} {operator : List Piece}
    {level : Nat} (left' : left.tokenKind? = none) (right' : right.tokenKind? = none)
    (is : operatorLevel? (operator.map Prod.fst) = some level) :
    (node .binaryExpression message? (left :: operator.map token ++ [right])).level = level := by
  have kinds : (operator.map token).filterMap tokenKind? = operator.map Prod.fst := by
    induction operator with
    | nil => rfl
    | cons piece operator ih => simp [tokenKind?, Function.comp_def]
  simp [Shape.level, left', right', kinds, is]

theorem operatorLevel?_le {kinds : List Kind} {level : Nat}
    (is : operatorLevel? kinds = some level) : level ≤ powerLevel := by
  unfold operatorLevel? at is
  split at is <;> cases is <;> decide

/-- No expression binds tighter than one that is no operation. -/
theorem level_le (shape : Shape) : shape.level ≤ primaryLevel := by
  cases shape with
  | token piece => exact Nat.zero_le _
  | node kind message? children =>
      unfold level
      dsimp only
      split
      · exact Nat.zero_le _
      · exact Nat.zero_le _
      · cases is : operatorLevel? (children.filterMap tokenKind?) with
        | none => exact Nat.zero_le _
        | some level => exact Nat.le_trans (operatorLevel?_le is) (by decide)
      · split <;> decide
      all_goals decide

end Shape
end StarlarkSyntax
