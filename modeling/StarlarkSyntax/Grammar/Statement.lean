import StarlarkSyntax.Grammar.Simple
/-!
# Statements

Statements that hold others are `if`, `for` and `def`. Their bodies are suites: simple statements on
the line of the colon, or an indented block on the lines after it. The rules are written with a
parameter `block` for the statements of a block, which are one level deeper; `blockFor` fills it in.

Every indent is matched by a dedent. The dedent that closes a block comes right after its
statements; one that closes an indent where no block could begin is passed quietly.
-/

set_option autoImplicit false

namespace StarlarkSyntax.Grammar

/-! ## Suites -/

/-- What comes before a suite. Anything between here and the colon is put into an error node;
answers whether a suite may follow. -/
def colon : ParseM Bool := do
  if ← matches? .colon then pure true
  else if ← isAt .statementBreak then
    missing "expected ':'"
    pure true
  else
    let junk ← mark
    let _ ← skipUntil [.dedent, .statementBreak, .colon]
    let found ← matches? .colon
    if !found then
      let _ ← matches? .statementBreak
    fault junk "expected ':'"
    pure found

/-- A statement of a suite on the line of its colon. -/
def inlineStatement : ParseM Unit :=
  within Scope.withSuite simpleStatement

/-- A suite on the line of its colon. -/
def inlineSuite : ParseM Unit := do
  let list ← mark
  if ← atEnd then missing "expected a statement"
  else
    inlineStatement
    repeatWhile do
      if !(← matches? .semicolon) then pure false
      else if ← matches? .statementBreak then pure false
      else
        inlineStatement
        pure true
  done list .statementList

/-- An indented suite; the end of the line before it has been passed. -/
def blockSuite (block : ParseM Unit) : ParseM Unit := do
  let list ← mark
  if ← matches? .indent then
    block
    done list .statementList
    let _ ← matches? .dedent
  else
    missing "expected an indented block"
    done list .statementList

/-- The body of a compound statement. -/
def suite (block : ParseM Unit) : ParseM Unit := do
  if ← matches? .statementBreak then blockSuite block else inlineSuite

/-- A colon and a suite. -/
def colonAndSuite (block : ParseM Unit) : ParseM Unit := do
  if ← colon then suite block else emptyNode .statementList

/-! ## Compound statements -/

/-- A condition, a colon and a suite; the next token is the word before them. -/
def branch (block : ParseM Unit) : ParseM Unit := do
  advance
  requireTest nested
  colonAndSuite block

/-- An `if` with all its branches; the next token is the word. -/
def ifStatement (block : ParseM Unit) : ParseM Unit := do
  let statement ← mark
  branch block
  repeatWhile do
    if ← isAtWord .elifWord then
      branch block
      pure true
    else pure false
  if ← matches? (.reserved .elseWord) then colonAndSuite block
  done statement .ifStatement

/-- A `for`; the next token is the word. -/
def forStatement (block : ParseM Unit) : ParseM Unit := do
  let statement ← mark
  advance
  targets nested
  let _ ← expect (.reserved .inWord) "expected 'in'"
  require expectedExpression expression
  colonAndSuite block
  done statement .forStatement

/-- The declaration of a function; the next token is the word `def`. -/
def functionDeclaration (block : ParseM Unit) : ParseM Unit := do
  let declaration ← mark
  advance
  let _ ← expect .identifier "expected a function name"
  if ← isAt lpar then parameterList nested
  else
    missing "expected '('"
    emptyNode .parameterList
  within Scope.withFunction (colonAndSuite block)
  done declaration .functionDeclaration

/-! ## All statements -/

/-- The number of indents that began no block. -/
def strayIndents : ParseM Nat := fun parser => some (parser.strayIndents, parser)

/-- The number of open blocks. -/
def blocks : ParseM Nat := fun parser => some (parser.blocks, parser)

/-- A statement that holds others; the next token is its word. -/
def compoundStatement (afterSemicolon : Bool) (rule : ParseM Unit) : ParseM Unit := do
  if afterSemicolon then missing "compound statements can't follow ';' on the same line"
  rule

/-- A statement that begins at the next token. The dedent that ends a block is left. -/
def statementHere (block : ParseM Unit) : ParseM Unit := do
  let afterSemicolon := (← scope).afterSemicolon
  setAfterSemicolon false
  match ← current? with
  | none => pure ()
  | some .dedent =>
    if 0 < (← strayIndents) then
      modify fun parser => { parser with strayIndents := parser.strayIndents - 1 }
      advance
    else if (← blocks) = 0 then simpleStatement
  | some (.reserved .ifWord) => compoundStatement afterSemicolon (ifStatement block)
  | some (.reserved .forWord) => compoundStatement afterSemicolon (forStatement block)
  | some (.reserved .defWord) => compoundStatement afterSemicolon (functionDeclaration block)
  | some _ => simpleStatement

/-- A statement, with the ends of empty ones before it. -/
def statementIn (block : ParseM Unit) : ParseM Unit := do
  repeatWhile (matches? .statementBreak)
  statementHere block

/-- Is the next token the dedent that closes the innermost block? -/
def atBlockEnd : ParseM Bool := do
  pure ((← isAt .dedent) && (← strayIndents) = 0)

/-- The indents that wait for their dedents after one more token. -/
def indentsAfter (depth : Nat) : Kind → Nat
  | .indent => depth + 1
  | .dedent => depth - 1
  | _ => depth

/-- Passes a token, unless it is the dedent of the outermost block that is passed over. -/
def skipBlockRound (depth : Nat) : ParseM (Bool × Nat) := do
  match ← current? with
  | none => pure (false, depth)
  | some kind =>
    let depth := indentsAfter depth kind
    if depth = 0 then pure (false, depth)
    else
      advance
      pure (true, depth)

/-- Puts the rest of a block that is nested too deeply into an error node, up to its dedent. -/
def skipBlock : ParseM Unit := do
  let junk ← mark
  let _ ← loop skipBlockRound 1
  fault junk "block nested too deeply"

/-- The statements of a block, up to its dedent, if it is not nested too deeply. -/
def blockOf (statement : ParseM Unit) : ParseM Unit := do
  if ← withBuilder Builder.enter then
    modify fun parser => { parser with blocks := parser.blocks + 1 }
    repeatWhile do
      if (← atEnd) || (← atBlockEnd) then pure false
      else
        statement
        pure true
    modify fun parser => { parser with blocks := parser.blocks - 1 }
    onBuilder Builder.exit
  else
    skipBlock

/-- The statements of a block, with at most so many levels of blocks in it. -/
def blockFor : Nat → ParseM Unit
  | 0 => blockOf unending
  | levels + 1 => blockOf (statementIn (blockFor levels))

/-- A statement, with as many levels of blocks in it as a builder ever lets a rule enter. -/
def statement : ParseM Unit :=
  statementIn (blockFor Builder.maxDepth)

/-- A whole file. -/
def file : ParseM Unit := do
  let file ← mark
  repeatWhile do
    if ← atEnd then pure false
    else
      statement
      pure true
  done file .file

end StarlarkSyntax.Grammar
