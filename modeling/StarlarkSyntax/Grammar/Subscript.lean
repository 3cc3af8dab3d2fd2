import StarlarkSyntax.Grammar.Nested
/-!
# Subscripts and slices

What stands in brackets after an expression is a slice if one of its items has a colon, and a
subscript if none has. Which of the two it is gets decided first, by looking ahead to the closing
bracket, so that every item is read only once and nested subscripts stay cheap.
-/

set_option autoImplicit false

namespace StarlarkSyntax.Grammar

/-- Looks ahead from the token after `n` others for a colon that makes a slice. Colons inside
brackets do not count, and each lambda takes one colon for itself. -/
def sliceAhead (builder : Builder) (n depth lambdas : Nat) : Bool :=
  match _h : builder.nth? n with
  | none | some .statementBreak => false
  | some (.opening _) => sliceAhead builder (n + 1) (depth + 1) lambdas
  | some (.closing _) =>
    match depth with
    | 0 => false
    | depth + 1 => sliceAhead builder (n + 1) depth lambdas
  | some (.reserved .lambdaWord) =>
    sliceAhead builder (n + 1) depth (if depth = 0 then lambdas + 1 else lambdas)
  | some .colon =>
    if depth = 0 then
      match lambdas with
      | 0 => true
      | lambdas + 1 => sliceAhead builder (n + 1) depth lambdas
    else sliceAhead builder (n + 1) depth lambdas
  | some _ => sliceAhead builder (n + 1) depth lambdas
termination_by builder.remaining - n
decreasing_by all_goals exact builder.sub_lt_of_nth? _h

/-- Do the brackets whose opening one has just been passed hold a slice? -/
def atSlice (builder : Builder) : Bool :=
  sliceAhead builder 0 0 0

/-- What is said where neither another item nor the closing bracket comes. -/
def expectedItemEnd : String := "expected ']' or ','"

/-- Says so if neither another item nor the closing bracket comes, and answers whether one does. -/
def checkItemEnd : ParseM Bool := do
  if ← isAtAny [rbracket, .comma] then pure true
  else
    missing expectedItemEnd
    pure false

/-- An item of a slice after the first: an expression or a slice. -/
def sliceItem (nested : Nested) : ParseM Unit := do
  let item ← mark
  let found ← test nested false
  if ← matches? .colon then
    let _ ← test nested false
    if ← matches? .colon then
      let _ ← test nested false
  else if !found then
    missing expectedExpression
  done item .sliceItem

/-- The items of a slice after the first one, and the closing bracket. -/
def sliceTail (nested : Nested) : ParseM Unit := do
  repeatWhile do
    if !(← matches? .comma) then pure false
    else if ← isAt rbracket then pure false
    else
      sliceItem nested
      checkItemEnd
  let _ ← expect rbracket "expected ']'"

/-- Where the first item of a slice starts, which may be left out. -/
def sliceStart (nested : Nested) : ParseM Unit := do
  if ← isAt .colon then emptyNode .emptyExpression else requireTest nested

/-- Where the first item of a slice stops, which may be left out before another colon. -/
def sliceStop (nested : Nested) : ParseM Unit := do
  if ← isAt .colon then emptyNode .emptyExpression
  else
    let _ ← test nested false
  if !(← isAtAny [rbracket, .colon, .comma]) then missing "expected ':' or ']'"

/-- The step of the first item of a slice, if it has one. -/
def sliceStep (nested : Nested) : ParseM Unit := do
  if ← matches? .colon then
    let _ ← test nested false

/-- The end of the first item of a slice, and everything after it. -/
def sliceRest (nested : Nested) (item : Marker) : ParseM Unit := do
  done item .sliceItem
  let _ ← checkItemEnd
  sliceTail nested

/-- The first item of a slice from its first colon on, and everything after it. -/
def sliceFromColon (nested : Nested) (item : Marker) : ParseM Unit := do
  advance
  if ← isAt rbracket then
    emptyNode .emptyExpression
    done item .sliceItem
    advance
  else
    sliceStop nested
    sliceStep nested
    sliceRest nested item

/-- The inside of the brackets of a slice, and the closing one. -/
def slice (nested : Nested) : ParseM Unit := do
  let item ← mark
  sliceStart nested
  if ← isAt .colon then sliceFromColon nested item else sliceRest nested item

/-- The inside of brackets after an expression, and the closing one; answers what they make. -/
def subscript (nested : Nested) : ParseM NodeKind := do
  if ← look atSlice then
    slice nested
    pure .sliceExpression
  else
    require expectedExpression (tuple nested false)
    let _ ← expect rbracket "expected ']'"
    pure .subscriptionExpression

end StarlarkSyntax.Grammar
