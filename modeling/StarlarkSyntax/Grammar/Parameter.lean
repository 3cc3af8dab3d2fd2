import StarlarkSyntax.Grammar.Nested
/-!
# Parameters

The parameters of a function or of a lambda, each tagged with its sort. Their order is not looked
at: a parameter may follow one that takes all the rest.
-/

set_option autoImplicit false

namespace StarlarkSyntax.Grammar

/-- One parameter of a list that ends at the given kind of token. What can begin no parameter is put
into an error node, up to where the next one may begin. -/
def parameter (nested : Nested) (stop : Kind) : ParseM Bool := do
  let parameter ← mark
  if ← matches? (.operator .starStar) then
    let _ ← expect .identifier "expected a parameter name"
    done parameter .keywordVariadicParameter
    pure true
  else if ← matches? (.operator .star) then
    let _ ← matches? .identifier
    done parameter .variadicParameter
    pure true
  else if ← matches? .identifier then
    if ← matches? .equals then
      requireTest nested
      done parameter .optionalParameter
    else
      done parameter .mandatoryParameter
    pure true
  else if ← skipUntil [.comma, stop, .colon, rpar, .statementBreak] then
    fault parameter "expected a parameter"
    pure true
  else
    drop parameter
    pure false

/-- Parameters separated by commas, up to the given kind of token. -/
def parameters (nested : Nested) (stop : Kind) : ParseM Unit := do
  let _ ← loop (fun first => do
    if (← atEnd) || (← isAt stop) then pure (false, first)
    else if first then pure (← parameter nested stop, false)
    else if !(← expect .comma "expected ','") then pure (false, false)
    else if ← isAt stop then pure (false, false)
    else pure (← parameter nested stop, false)) true

/-- The parameters of a function with their parentheses; the next token is the opening one. -/
def parameterList (nested : Nested) : ParseM Unit := do
  let list ← mark
  advance
  parameters nested rpar
  let _ ← expect rpar "expected ')'"
  done list .parameterList

/-- The parameters of a lambda, up to its colon, which is left. -/
def lambdaParameters (nested : Nested) : ParseM Unit := do
  let list ← mark
  parameters nested .colon
  done list .parameterList

end StarlarkSyntax.Grammar
