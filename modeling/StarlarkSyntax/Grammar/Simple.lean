import StarlarkSyntax.Grammar.Expression
/-!
# Simple statements

Statements that hold no other statements: one word, a `return`, a `load`, an expression, or an
assignment. Each of them ends at the end of its line or at a semicolon.

What stands left of a `=` is known to be a target only when the `=` comes, so it is read a second
time then; an assignment to several targets repeats this for each of them.
-/

set_option autoImplicit false

namespace StarlarkSyntax.Grammar

/-- The end of a statement. In a suite on the line of its colon, a semicolon is left for the suite,
which has to see whether another statement follows. -/
def endOfStatement : ParseM Unit := do
  if ← matches? .statementBreak then setAfterSemicolon false
  else if ← isAt .semicolon then
    if !(← scope).inSuite then
      advance
      setAfterSemicolon true
      if ← matches? .statementBreak then setAfterSemicolon false
  else if !(← atEnd) then missing "expected end of statement"

/-- A statement of one word; the next token is the word. -/
def wordStatement (kind : NodeKind) : ParseM Unit := do
  let statement ← mark
  advance
  endOfStatement
  done statement kind

/-- A `return`, with or without a value; the next token is the word. -/
def returnStatement : ParseM Unit := do
  let statement ← mark
  advance
  if !((← atEnd) || (← isAtAny [.statementBreak, .semicolon])) then
    require expectedExpression expression
  endOfStatement
  done statement .returnStatement

/-! ## Loading -/

/-- A string in a `load`. -/
def loadString : ParseM Unit := do
  if ← isAt .string then tokenNode .stringLiteralExpression
  else if (← atEnd) || (← isAtAny [.statementBreak, rpar, .comma]) then missing "expected a string"
  else advanceError "expected a string"

/-- A symbol to load, with or without another name for it. -/
def loadValue : ParseM Unit := do
  let value ← mark
  if !(← matches? .identifier) then
    loadString
    done value .stringLoadValue
  else if ← matches? .equals then
    loadString
    done value .namedLoadValue
  else
    rollback value
    let value ← mark
    loadString
    done value .stringLoadValue

/-- What a `load` has in its parentheses: the module, and what is loaded from it. -/
def loadValues : ParseM Unit := do
  if !(← matches? lpar) then missing "expected '('"
  else
    if !(← isAt rpar) then
      loadString
      repeatWhile do
        if ← isAt rpar then pure false
        else if !(← matches? .comma) then
          missing "expected ',' or ')'"
          pure false
        else if ← isAt rpar then pure false
        else
          loadValue
          pure true
    let _ ← expect rpar "expected ')'"

/-- A `load`; the next token is the word. -/
def loadStatement : ParseM Unit := do
  let statement ← mark
  advance
  loadValues
  endOfStatement
  done statement .loadStatement

/-! ## Expressions and assignments -/

/-- The targets of an assignment and its value. -/
def assignment : ParseM Unit := do
  targetExpression
  if ← expect .equals "expected '='" then
    repeatWhile do
      let value ← mark
      if !(← expression) then
        drop value
        missing expectedExpression
        pure false
      else if !(← isAt .equals) then
        drop value
        pure false
      else
        rollback value
        targetExpression
        matches? .equals

/-- Reports a token that cannot begin a statement, and passes it. -/
def unexpectedToken : ParseM Unit := do
  match ← current? with
  | none => pure ()
  | some .inconsistentDedent =>
    advanceError "unindent does not match any outer indentation level"
  | some .indent =>
    modify fun parser => { parser with strayIndents := parser.strayIndents + 1 }
    advanceError "unexpected indent"
  | some kind => advanceError ("statement expected, found " ++ kind.name)

/-- An expression or an assignment. -/
def expressionStatement : ParseM Unit := do
  let statement ← mark
  if !(← expression) then
    rollback statement
    unexpectedToken
  else
    match ← current? with
    | some (.compoundAssign _) =>
      advance
      require expectedExpression expression
      endOfStatement
      done statement .augAssignmentStatement
    | some .equals =>
      rollback statement
      let statement ← mark
      assignment
      endOfStatement
      done statement .assignmentStatement
    | _ =>
      endOfStatement
      done statement .expressionStatement

/-- A simple statement. -/
def simpleStatement : ParseM Unit := do
  match ← current? with
  | none => pure ()
  | some (.reserved .breakWord) => wordStatement .breakStatement
  | some (.reserved .continueWord) => wordStatement .continueStatement
  | some (.reserved .passWord) => wordStatement .passStatement
  | some (.reserved .returnWord) => returnStatement
  | some (.reserved .loadWord) => loadStatement
  | some _ => expressionStatement

end StarlarkSyntax.Grammar
