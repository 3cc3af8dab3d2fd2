import StarlarkSyntax.Grammar.Argument
import StarlarkSyntax.Grammar.Display
/-!
# Expressions

Full expressions, and the place where the rules for the nested productions are filled in.
`nestedFor` gives the rules for the productions nested at most so many levels, and has nothing to
give for a level below those; `nested` gives as many as a builder ever lets a rule enter, so that it
never is the rules that run out.
-/

set_option autoImplicit false

namespace StarlarkSyntax.Grammar

/-- An operation, or one that is chosen by a condition. A colon after the condition shows that the
`if` begins a statement, because a bracket was not closed or a line break is missing. -/
def choice (nested : Nested) (target : Bool) : ParseM Bool := do
  let expression ← mark
  if !(← operation nested target) then
    drop expression
    pure false
  else if !(← isAtWord .ifWord) then
    drop expression
    pure true
  else
    let condition ← mark
    advance
    let found ← operation nested target
    if found && (← isAt .colon) then
      rollback condition
      drop expression
      pure true
    else
      if !found then missing expectedExpression
      else if ← matches? (.reserved .elseWord) then
        require expectedExpression (test nested target)
      else missing "expected 'else'"
      drop condition
      done expression .conditionalExpression
      pure true

/-- A lambda, or an operation that may be chosen by a condition. -/
def conditional (nested : Nested) (target : Bool) : ParseM Bool := do
  if ← isAtWord .lambdaWord then lambda nested (test nested false) else choice nested target

/-- The rule for a production, when those one level deeper are given. -/
def production (nested : Nested) : Production → ParseM Bool
  | .test target => conditional nested target
  | .display delimiter target => do
    display nested delimiter target
    pure true
  | .arguments => do
    arguments nested
    pure true
  | .negation target => prefixed (negation nested target)
  | .signed target => prefixed (unary nested target)
  | .exponent target => unary nested target

/-- The rules for the productions, nested at most so many levels. -/
def nestedFor : Nat → Nested
  | 0, _ => nest unending
  | levels + 1, rule => nest (production (nestedFor levels) rule)

/-- The rules for the productions, nested as deep as is ever allowed. -/
def nested : Nested :=
  nestedFor Builder.maxDepth

/-- Full expressions separated by commas. -/
def expression : ParseM Bool :=
  tuple nested false

/-- Full expressions separated by commas, which are assigned to and have to be there. -/
def targetExpression : ParseM Unit :=
  require expectedExpression (tuple nested true)

end StarlarkSyntax.Grammar
