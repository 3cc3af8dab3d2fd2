import StarlarkSyntax.Grammar.Operation
import StarlarkSyntax.Grammar.Parameter
/-!
# Lambdas and comprehensions

The range of a comprehension cannot be a conditional expression, since an `if` after it is a
condition of the comprehension. The items of a range are therefore operations, or lambdas whose
bodies are such items again. Neither can a condition itself be a conditional expression, but the
body of a lambda in one can.
-/

set_option autoImplicit false

namespace StarlarkSyntax.Grammar

/-- A lambda up to its colon; the next token is its word. -/
def lambdaHead (nested : Nested) : ParseM Marker := do
  let expression ← mark
  advance
  lambdaParameters nested
  let _ ← expect .colon "expected ':'"
  pure expression

/-- A lambda with the given rule for its body; the next token is its word. -/
def lambda (nested : Nested) (body : ParseM Bool) : ParseM Bool := do
  let expression ← lambdaHead nested
  require expectedExpression body
  done expression .lambdaExpression
  pure true

/-- An item of a range, which is an operation or a lambda with such an item for its body. -/
def Nested.rangeItem (nested : Nested) : ParseM Bool := do
  if !(← isAtWord .lambdaWord) then operation nested false
  else
    let expression ← lambdaHead nested
    if !(← nested |>.rangeItem) then missing expectedExpression
    done expression .lambdaExpression
    pure true
partial_fixpoint

theorem rangeItem_eq (nested : Nested) :
    nested.rangeItem = (do
      if ← isAtWord .lambdaWord then lambda nested nested.rangeItem
      else operation nested false) := by
  conv => lhs; rw [Nested.rangeItem]
  refine bind_congr fun isLambda => ?_
  cases isLambda with
  | false => rfl
  | true =>
      unfold lambda require
      simp only [Bool.not_true, Bool.false_eq_true, if_false, if_true, bind_assoc]
      refine bind_congr fun _ => bind_congr fun found => ?_
      cases found
      · rfl
      · simp

/-- A condition of a comprehension. -/
def condition (nested : Nested) : ParseM Bool := do
  if ← isAtWord .lambdaWord then lambda nested (test nested false) else operation nested false

/-- The targets of a `for`, which are a tuple if there is a comma. -/
def targets (nested : Nested) : ParseM Unit := do
  let tuple ← mark
  if !(← starExpression nested true) then
    missing expectedExpression
    drop tuple
  else if !(← isAt .comma) then
    drop tuple
  else
    repeatWhile do
      if !(← matches? .comma) then pure false
      else
        let place ← mark
        if ← starExpression nested true then
          drop place
          pure true
        else
          rollback place
          pure false
    done tuple .tupleExpression

/-- A `for` with its conditions; the next token is the word. -/
def clause (nested : Nested) (kind : NodeKind) : ParseM Unit := do
  advance
  targets nested
  let _ ← expect (.reserved .inWord) "expected 'in'"
  require expectedExpression <|
    if kind = .generatorExpression then operation nested false
    else tupleOf nested.rangeItem
  repeatWhile do
    if ← isAtWord .ifWord then
      advance
      require expectedExpression (condition nested)
      pure true
    else pure false

/-- The clauses of a comprehension that began at a marker, and the bracket that closes it. A
generator that is the only argument of a call has no bracket of its own. -/
def comprehension (nested : Nested) (expression : Marker) (close? : Option Kind)
    (kind : NodeKind) : ParseM Unit := do
  repeatWhile do
    clause nested kind
    isAtWord .forWord
  if let some close := close? then
    if !(← matches? close) then missing ("expected 'for' or '" ++ close.name ++ "'")
  done expression kind

end StarlarkSyntax.Grammar
