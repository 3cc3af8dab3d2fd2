import StarlarkSyntax.Grammar.Comprehension
/-!
# Arguments

The arguments of a call, separated by commas: an expression, a name with a value, or something after
one or two stars. The first argument may be a generator without parentheses of its own.
-/

set_option autoImplicit false

namespace StarlarkSyntax.Grammar

/-- An argument with a name, if there is one. -/
def namedArgument (nested : Nested) : ParseM Bool := do
  if !(← isAt .identifier) then pure false
  else
    let argument ← mark
    advance
    if ← matches? .equals then
      requireTest nested
      done argument .namedArgumentExpression
      pure true
    else
      rollback argument
      pure false

/-- An argument that is an expression; the first one may be a generator. -/
def plainArgument (nested : Nested) (first : Bool) : ParseM Bool := do
  let argument ← mark
  let generator ← mark
  if !(← test nested false) then
    rollback argument
    pure false
  else
    if first && (← isAtWord .forWord) then
      comprehension nested generator none .generatorExpression
    else
      drop generator
    done argument .argumentExpression
    pure true

/-- One argument. -/
def argument (nested : Nested) (first : Bool) : ParseM Bool := do
  if ← isAtAny [.operator .star, .operator .starStar] then
    let argument ← mark
    advance
    requireTest nested
    done argument .starArgumentExpression
    pure true
  else if ← namedArgument nested then pure true
  else plainArgument nested first

/-- The arguments of a call with their parentheses; the next token is the opening one. -/
def arguments (nested : Nested) : ParseM Unit := do
  let list ← mark
  advance
  let _ ← loop (fun first => do
    if ← isAt rpar then pure (false, first)
    else if first then pure (← argument nested true, false)
    else if !(← matches? .comma) then
      missing "expected ',' or ')'"
      pure (false, false)
    else if ← isAt rpar then pure (false, false)
    else pure (← argument nested false, false)) true
  let _ ← expect rpar "expected ')'"
  done list .argumentList

end StarlarkSyntax.Grammar
