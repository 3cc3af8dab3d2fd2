import StarlarkSyntax.Token.Kind
/-!
# Precedence of binary operators

The binary operators stand on nine levels. The operands of an operator are expressions of tighter
levels, and operators of one level take their operands from the left. The word `not` binds between
`and` and the comparisons; it is no binary operator and stands on none of the levels.

Two comparisons are written with two words, `not in` and `is not`, so that the token after the
current one has to be looked at as well.
-/

set_option autoImplicit false

namespace StarlarkSyntax

/-- The levels of binary operators, loosest first. -/
inductive Precedence where
  | disjunction
  | conjunction
  | comparison
  | bitOr
  | bitXor
  | bitAnd
  | shift
  | additive
  | multiplicative
deriving DecidableEq, Inhabited

namespace Precedence

/-- The level that binds least. -/
def loosest : Precedence := disjunction

/-- The next level that binds more. -/
def tighter? : Precedence → Option Precedence
  | disjunction => some conjunction
  | conjunction => some comparison
  | comparison => some bitOr
  | bitOr => some bitXor
  | bitXor => some bitAnd
  | bitAnd => some shift
  | shift => some additive
  | additive => some multiplicative
  | multiplicative => none

/-- How many tokens the comparison takes that begins with the first of two tokens. -/
def comparisonLength? (current : Kind) (next? : Option Kind) : Option Nat :=
  match current with
  | .reserved .notWord => if next? = some (.reserved .inWord) then some 2 else none
  | .reserved .isWord => if next? = some (.reserved .notWord) then some 2 else some 1
  | .reserved .inWord => some 1
  | .operator .less | .operator .greater | .operator .equalEqual | .operator .bangEqual
  | .operator .lessEqual | .operator .greaterEqual => some 1
  | _ => none

/-- The tokens that stand for an operator of a level by themselves. -/
def operators : Precedence → List Kind
  | disjunction => [.reserved .orWord]
  | conjunction => [.reserved .andWord]
  | comparison => []
  | bitOr => [.operator .pipe]
  | bitXor => [.operator .caret]
  | bitAnd => [.operator .ampersand]
  | shift => [.operator .lessLess, .operator .greaterGreater]
  | additive => [.operator .plus, .operator .minus]
  | multiplicative =>
    [.operator .star, .operator .slash, .operator .slashSlash, .operator .percent]

/-- How many tokens the operator of a level takes that begins with the first of two tokens. -/
def operatorLength? (level : Precedence) (current? next? : Option Kind) : Option Nat :=
  match current? with
  | none => none
  | some current =>
    match level with
    | comparison => comparisonLength? current next?
    | level => if level.operators.contains current then some 1 else none

/-- An operator takes one token or two. -/
theorem operatorLength?_pos {level : Precedence} {current? next? : Option Kind} {length : Nat}
    (h : level.operatorLength? current? next? = some length) : 0 < length ∧ length ≤ 2 := by
  unfold operatorLength? comparisonLength? at h
  grind

end Precedence
end StarlarkSyntax
