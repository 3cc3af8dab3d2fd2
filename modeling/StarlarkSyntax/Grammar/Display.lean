import StarlarkSyntax.Grammar.Comprehension
/-!
# Displays: what stands in brackets

Parentheses hold a single expression, a tuple, or a generator; brackets a list; braces a dictionary
or a set. What a display is shows after its first element: a word `for` makes it a comprehension,
and a colon in braces makes the element a key.
-/

set_option autoImplicit false

namespace StarlarkSyntax.Grammar

/-- The elements of a list or a set after the first, and the closing bracket. -/
def elements (nested : Nested) (target : Bool) (expression : Marker) (close : Kind)
    (kind : NodeKind) : ParseM Unit := do
  let closing := "'" ++ close.name ++ "'"
  repeatWhile do
    if ← isAt close then pure false
    else
      if !(← matches? .comma) then missing ("expected " ++ closing ++ " or ','")
      if ← isAt close then pure false
      else if ← test nested target then pure true
      else
        missing ("expected an expression, ',' or " ++ closing)
        pure false
  let _ ← expect close ("expected " ++ closing)
  done expression kind

/-- A list. -/
def listDisplay (nested : Nested) (target : Bool) : ParseM Unit := do
  let expression ← mark
  advance
  if ← matches? rbracket then
    done expression .listLiteralExpression
  else
    require expectedExpression (test nested target)
    if ← isAtWord .forWord then
      comprehension nested expression (some rbracket) .listCompExpression
    else
      elements nested target expression rbracket .listLiteralExpression

/-- Something in parentheses. What is left before the closing one is put into an error node. -/
def parenthesized (nested : Nested) (target : Bool) : ParseM Unit := do
  let expression ← mark
  advance
  if ← matches? rpar then
    done expression .tupleExpression
  else
    let _ ← tuple nested target
    if ← isAtWord .forWord then
      comprehension nested expression (some rpar) .generatorExpression
    else
      let junk ← mark
      if ← skipUntil [rpar, .statementBreak] then fault junk "unexpected expression syntax"
      else drop junk
      let _ ← expect rpar "expected ')'"
      done expression .parenthesizedExpression

/-- A key, a colon and a value. -/
def keyValue (nested : Nested) : ParseM Bool := do
  let pair ← mark
  if !(← test nested false) then
    drop pair
    pure false
  else
    let _ ← expect .colon "expected ':'"
    if ← test nested false then
      done pair .keyValueExpression
      pure true
    else
      missing "expected a value"
      drop pair
      pure false

/-- The entries of a dictionary after the first, and the closing brace. -/
def entries (nested : Nested) (expression : Marker) : ParseM Unit := do
  repeatWhile do
    if ← isAt rbrace then pure false
    else
      let _ ← expect .comma "expected ','"
      if ← isAtOperator .starStar then doubleStar nested else keyValue nested
  let _ ← expect rbrace "expected '\x7d'"
  done expression .dictLiteralExpression

/-- A dictionary from the value of its first key on. -/
def dictionary (nested : Nested) (expression pair : Marker) : ParseM Unit := do
  if ← test nested false then
    done pair .keyValueExpression
    if ← isAtWord .forWord then
      comprehension nested expression (some rbrace) .dictCompExpression
    else
      entries nested expression
  else
    missing expectedExpression
    done pair .keyValueExpression
    let _ ← matches? rbrace
    done expression .dictLiteralExpression

/-- Something in braces. The first element is read before it is known whether it is a key. -/
def braces (nested : Nested) : ParseM Unit := do
  let expression ← mark
  advance
  if ← matches? rbrace then
    done expression .dictLiteralExpression
  else if ← isAtOperator .starStar then
    if ← doubleStar nested then
      entries nested expression
    else
      missing expectedExpression
      done expression .dictLiteralExpression
  else
    let first ← mark
    if !(← test nested false) then
      missing expectedExpression
      drop first
      done expression .dictLiteralExpression
    else if ← matches? .colon then
      dictionary nested expression first
    else
      drop first
      if ← isAtWord .forWord then
        comprehension nested expression (some rbrace) .dictCompExpression
      else
        elements nested false expression rbrace .dictLiteralExpression

/-- Something in brackets of the given sort; the next token is the opening one. -/
def display (nested : Nested) (delimiter : Delimiter) (target : Bool) : ParseM Unit :=
  match delimiter with
  | .parenthesis => parenthesized nested target
  | .bracket => listDisplay nested target
  | .brace => braces nested

end StarlarkSyntax.Grammar
