import StarlarkSyntax.Grammar.Parser
/-!
# Nested rules

Expressions hold expressions. The rules that close such a cycle are listed as `Production`s, and the
other rules are written with a parameter `nested : Nested` that stands for those rules followed one
level deeper. So no rule calls itself, and how deep the rules may be nested is decided in one place,
where the parameter is filled in.

This module also holds the rules that only need an expression to be there.
-/

set_option autoImplicit false

namespace StarlarkSyntax.Grammar

/-- The rules that are followed one level deeper. Those with a truth value may stand where something
is assigned to. -/
inductive Production where
  /-- A full expression. -/
  | test (target : Bool)
  /-- Something in brackets. -/
  | display (delimiter : Delimiter) (target : Bool)
  /-- The arguments of a call. -/
  | arguments
  /-- The word `not` and its operand. -/
  | negation (target : Bool)
  /-- A sign and its operand. -/
  | signed (target : Bool)
  /-- The right operand of a power. -/
  | exponent (target : Bool)
deriving DecidableEq, Inhabited

/-- The rules for the productions, one level deeper. -/
abbrev Nested := Production → ParseM Bool

/-- The opening parenthesis. -/
abbrev lpar : Kind := .opening .parenthesis
/-- The closing parenthesis. -/
abbrev rpar : Kind := .closing .parenthesis
/-- The opening bracket. -/
abbrev lbracket : Kind := .opening .bracket
/-- The closing bracket. -/
abbrev rbracket : Kind := .closing .bracket
/-- The opening brace. -/
abbrev lbrace : Kind := .opening .brace
/-- The closing brace. -/
abbrev rbrace : Kind := .closing .brace

/-- What is said where an expression is missing. -/
def expectedExpression : String := "expected an expression"

/-- A full expression. -/
def test (nested : Nested) (target : Bool) : ParseM Bool :=
  nested (.test target)

/-- A full expression that has to be there. -/
def requireTest (nested : Nested) : ParseM Unit :=
  require expectedExpression (test nested false)

/-- Items separated by commas, which are a tuple only if there is a comma. A comma may come last. -/
def tupleOf (item : ParseM Bool) : ParseM Bool := do
  let tuple ← mark
  if !(← item) then
    drop tuple
    pure false
  else if !(← isAt .comma) then
    drop tuple
    pure true
  else
    repeatWhile do
      if !(← matches? .comma) then pure false
      else
        let place ← mark
        if ← item then
          drop place
          pure true
        else
          rollback place
          pure false
    done tuple .tupleExpression
    pure true

/-- Full expressions separated by commas. -/
def tuple (nested : Nested) (target : Bool) : ParseM Bool :=
  tupleOf (test nested target)

end StarlarkSyntax.Grammar
