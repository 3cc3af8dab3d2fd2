import StarlarkSyntax.Grammar.Chain
import StarlarkSyntax.Grammar.Precedence
/-!
# Operations

The ladder of operators, from the tightest to the loosest. Powers bind most, and more than a sign on
their left but not on their right: `-a ** -b` is `-(a ** (-b))`. Signs come next, then the levels of
binary operators, with the word `not` between the comparisons and `and`. The left operand of a
comparison may have a star before it.
-/

set_option autoImplicit false

namespace StarlarkSyntax.Grammar

/-- Operands with operators of one level between them. Each operator makes what there is so far its
left operand. -/
def leftAssociative (level : Precedence) (left right : ParseM Bool) : ParseM Bool := do
  let marker ← mark
  if !(← left) then
    drop marker
    pure false
  else
    let marker ← loop (fun marker => do
      match ← look fun builder => level.operatorLength? (builder.nth? 0) (builder.nth? 1) with
      | none => pure (false, marker)
      | some length =>
        advance
        if length = 2 then advance
        require expectedExpression right
        pure (true, ← wrap marker .binaryExpression)) marker
    drop marker
    pure true

/-- An operator before its operand; the operator is the next token. -/
def prefixed (operand : ParseM Bool) : ParseM Bool := do
  let expression ← mark
  advance
  require expectedExpression operand
  done expression .prefixExpression
  pure true

/-- A chain, or a power of one. -/
def power (nested : Nested) (target : Bool) : ParseM Bool := do
  let expression ← mark
  if !(← member nested target) then
    drop expression
    pure false
  else if ← matches? (.operator .starStar) then
    require expectedExpression (nested (.exponent target))
    done expression .binaryExpression
    pure true
  else
    drop expression
    pure true

/-- The operators that may stand before an operand. -/
def signs : List Kind :=
  [.operator .minus, .operator .plus, .operator .tilde]

/-- An operand with or without a sign. -/
def unary (nested : Nested) (target : Bool) : ParseM Bool := do
  if ← isAtAny signs then nested (.signed target) else power nested target

/-- Products, quotients and remainders. -/
def multiplicative (nested : Nested) (target : Bool) : ParseM Bool :=
  leftAssociative .multiplicative (unary nested target) (unary nested target)

/-- Sums and differences. -/
def additive (nested : Nested) (target : Bool) : ParseM Bool :=
  leftAssociative .additive (multiplicative nested target) (multiplicative nested target)

/-- Shifts. -/
def shift (nested : Nested) (target : Bool) : ParseM Bool :=
  leftAssociative .shift (additive nested target) (additive nested target)

/-- Operations `&`. -/
def bitAnd (nested : Nested) (target : Bool) : ParseM Bool :=
  leftAssociative .bitAnd (shift nested target) (shift nested target)

/-- Operations `^`. -/
def bitXor (nested : Nested) (target : Bool) : ParseM Bool :=
  leftAssociative .bitXor (bitAnd nested target) (bitAnd nested target)

/-- Operations `|`. -/
def bitOr (nested : Nested) (target : Bool) : ParseM Bool :=
  leftAssociative .bitOr (bitXor nested target) (bitXor nested target)

/-- An operand with or without stars of the given sort before it. -/
def starred (symbol : Operator) (kind : NodeKind) (operand : ParseM Bool) : ParseM Bool := do
  if !(← isAtOperator symbol) then operand
  else
    let expression ← mark
    advance
    if ← operand then
      done expression kind
      pure true
    else
      missing expectedExpression
      drop expression
      pure false

/-- An operand with or without a star before it. -/
def starExpression (nested : Nested) (target : Bool) : ParseM Bool :=
  starred .star .starExpression (bitOr nested target)

/-- An operand with or without two stars before it. -/
def doubleStar (nested : Nested) : ParseM Bool :=
  starred .starStar .doubleStarExpression (bitOr nested false)

/-- Comparisons. -/
def comparison (nested : Nested) (target : Bool) : ParseM Bool :=
  leftAssociative .comparison (starExpression nested target) (bitOr nested target)

/-- A comparison with or without `not` before it. -/
def negation (nested : Nested) (target : Bool) : ParseM Bool := do
  if ← isAtWord .notWord then nested (.negation target) else comparison nested target

/-- Operations `and`. -/
def conjunction (nested : Nested) (target : Bool) : ParseM Bool :=
  leftAssociative .conjunction (negation nested target) (negation nested target)

/-- Operations `or`, the loosest of all. -/
def operation (nested : Nested) (target : Bool) : ParseM Bool :=
  leftAssociative .disjunction (conjunction nested target) (conjunction nested target)

end StarlarkSyntax.Grammar
