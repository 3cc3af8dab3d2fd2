import StarlarkSyntax.Token.Basic
/-!
# Layout: indentation made into tokens

A grammar does not look at white space, so what the shape of a program means is put into tokens of
no width:

* a `statementBreak` ends each logical line with code on it, and the whole text;
* an `indent` comes before the first token of a line that is indented deeper than its block;
* a `dedent` closes each block that a line indented less deep ends. If the line fits no open block,
  an `inconsistentDedent` comes before the last of them.

Line breaks inside brackets end nothing. Blank lines and lines with only a comment change no
indentation; a comment right before a change is put into the block whose indentation it has.
Neighbouring white space becomes a single token, a `lineBreak` if a line ends in it.

The pass goes over the tokens once. Tokens before the last piece of code are settled. Those after it
(white space and comments) are kept apart as `pending`, because the next piece of code decides where
among them blocks begin and end; places among them are counted from the first of them.
-/

set_option autoImplicit false

namespace StarlarkSyntax.Layout

/-- A tab moves to the next multiple of this many columns. -/
def tabWidth : Nat := 8

/-- The column after one more character of white space. A line feed (of a joined line) and a form
feed start over; a carriage return does not count. -/
def measureChar (column : Nat) (c : Char) : Nat :=
  if c = ' ' then column + 1
  else if c = '\t' then (column / tabWidth + 1) * tabWidth
  else if c = '\n' || c = '\x0c' then 0
  else column

/-- How deep some white space indents what follows it. -/
def measure (text : List Char) : Nat :=
  text.foldl measureChar 0

/-- The start of a logical line whose indentation has not been dealt with yet. -/
structure LineStart where
  /-- The place of the white space before the line, or of its first token if there is none. -/
  run : Nat
  indent : Nat
  /-- Only the first line of a text comes after no line break. -/
  afterBreak : Bool
deriving DecidableEq, Inhabited

/-- A line with only a comment on it, which belongs to no block yet. -/
structure CommentLine where
  /-- The place of the white space before the line. -/
  run : Nat
  /-- The place of the comment. -/
  comment : Nat
  indent : Nat
deriving DecidableEq, Inhabited

/-- The text that the pass has not come to yet, and the bytes before it. -/
structure Remaining where
  text : List Char
  offset : Nat := 0
deriving Inhabited

/-- A token of white space. -/
structure Blank where
  /-- The text between the token and the white space before it, where a token was left out. -/
  gap : List Char
  token : Token
deriving Inhabited

/-- How far the pass has come. -/
structure State where
  remaining : Remaining
  settled : Array Token := #[]
  pending : Array Token := #[]
  /-- White space that has not been made into one token yet. -/
  blanks : Array Blank := #[]
  /-- The indentations of the open blocks, innermost first; the outermost level is not listed. -/
  blocks : List Nat := []
  /-- How many brackets are open. -/
  depth : Nat := 0
  lineHasCode : Bool := false
  lineStart? : Option LineStart := some ⟨0, 0, false⟩
  commentLines : Array CommentLine := #[]
deriving Inhabited

/-- Keeps a token among the pending ones. -/
def State.keep (state : State) (token : Token) : State :=
  { state with pending := state.pending.push token }

/-- Settles the tokens that are pending. -/
def State.settle (state : State) : State :=
  { state with settled := state.settled ++ state.pending, pending := #[] }

/-! ## White space -/

/-- The text before some distance in bytes, and what remains after it. -/
def Remaining.splitAt (remaining : Remaining) (stop : Nat) : List Char × Remaining :=
  go remaining.text remaining.offset []
where
  go : List Char → Nat → List Char → List Char × Remaining
    | [], offset, taken => (taken.reverse, ⟨[], offset⟩)
    | c :: rest, offset, taken =>
      if stop ≤ offset then (taken.reverse, ⟨c :: rest, offset⟩)
      else go rest (offset + c.utf8Size) (c :: taken)

/-- The text between two distances in bytes, and what remains after it. -/
def Remaining.between (remaining : Remaining) (start stop : Nat) : List Char × Remaining :=
  (remaining.splitAt start).2.splitAt stop

/-- Adds a token of white space to those read since the last other token. -/
def blank (state : State) (token : Token) : State :=
  match state.blanks.back? with
  | some last =>
    if last.token.stop < token.offset then
      let (gap, remaining) := state.remaining.between last.token.stop token.offset
      { state with remaining, blanks := state.blanks.push ⟨gap, token⟩ }
    else { state with blanks := state.blanks.push ⟨[], token⟩ }
  | none => { state with blanks := state.blanks.push ⟨[], token⟩ }

/-- The text of some white space, with the gaps in it. -/
def joinedBody (blanks : List Blank) : List Char :=
  blanks.flatMap fun blank => blank.gap ++ blank.token.body

/-- One token for some white space that has a first and a last token. -/
def merged (blanks : List Blank) (first last : Token) : Token :=
  ⟨if blanks.any (·.token.kind == .lineBreak) then .lineBreak else .space,
    .ofCarets first.span.start last.span.stop, joinedBody blanks, first.offset⟩

/-- The white space after the last line break. -/
def afterLastBreak (blanks : List Token) : List Char :=
  Token.textOf (blanks.reverse.takeWhile (·.kind ≠ .lineBreak)).reverse

/-- Ends the statement on a line before the white space after it, if there is a statement. -/
def endStatement (state : State) (after : Token) : State :=
  if state.lineHasCode then
    let statementEnd := Token.zeroWidth .statementBreak after.span.start after.offset
    let state := state.settle
    { state with settled := state.settled.push statementEnd, lineHasCode := false }
  else state

/-- Begins a line at the next token. -/
def beginLine (state : State) (indent : Nat) : State :=
  { state with lineStart? := some ⟨state.pending.size, indent, true⟩ }

/-- Sets the indentation of the first line of a text. -/
def indentFirstLine (state : State) (indent : Nat) : State :=
  match state.lineStart? with
  | some start =>
    if state.depth = 0 && !start.afterBreak then
      { state with lineStart? := some { start with indent } }
    else state
  | none => state

/-- Makes one token of the white space read since the last other token. At a line break outside
brackets, ends the statement on the line, if there is one, and starts a new line. -/
def closeBlanks (state : State) : State :=
  match state.blanks[0]?, state.blanks.back? with
  | some first, some last =>
    let blanks := state.blanks.toList
    let token := merged blanks first.token last.token
    let tokens := blanks.map Blank.token
    let state := { state with blanks := #[] }
    if state.depth = 0 && token.kind == .lineBreak then
      (beginLine (endStatement state token) (measure (afterLastBreak tokens))).keep token
    else
      (indentFirstLine state (measure (Token.textOf tokens))).keep token
  | _, _ => state

/-! ## Indentation -/

/-- The indentation of the innermost open block. -/
def innermost (blocks : List Nat) : Nat :=
  blocks.headD 0

/-- Puts a token of no width before the pending token at some place, or at the end of them, where
the caret and the distance of what comes next are given. -/
def insert (pending : Array Token) (place : Nat) (kind : Kind) (next : Caret × Nat) :
    Array Token :=
  let (caret, offset) :=
    match pending[place]? with
    | some token => (token.span.start, token.offset)
    | none => next
  pending.insertIdxIfInBounds place (.zeroWidth kind caret offset)

/-- Where a new block begins: before the comments right before its first line that are indented like
it, or else before that line's first token. -/
def indentPlace (state : State) (indent : Nat) : Nat :=
  match (state.commentLines.toList.reverse.takeWhile (·.indent == indent)).getLast? with
  | some line => line.comment
  | none => state.pending.size

/-- Where a block ends: before the first comment line that is outside it, or else before the line
that ends it. -/
def dedentPlace (state : State) (block : Nat) (run : Nat) : Nat :=
  match state.commentLines.find? (·.indent < block) with
  | some line => line.run
  | none => run

/-- The blocks that stay open, and the tokens that close the others with their places, when a line
indented by `indent` comes after the white space at `run`. -/
def closings (state : State) (indent run : Nat) : List Nat → List Nat × List (Nat × Kind)
  | [] => ([], [])
  | block :: outer =>
    if block ≤ indent then (block :: outer, [])
    else
      let place := dedentPlace state block run
      if innermost outer < indent then
        (outer, [(place, .inconsistentDedent), (place, .dedent)])
      else
        let (left, more) := closings state indent run outer
        (left, (place, .dedent) :: more)

/-- Closes the blocks that a line ends. The places never decrease, so that inserting from the last
one on keeps those before it right. -/
def dedent (state : State) (indent run : Nat) (next : Caret × Nat) : State :=
  let (blocks, insertions) := closings state indent run state.blocks
  { state with
    blocks
    pending := insertions.foldr (fun (place, kind) pending => insert pending place kind next)
      state.pending }

/-- Compares the indentation of a line with code on it to the open blocks. -/
def indentation (state : State) (start : LineStart) (next : Caret × Nat) : State :=
  let top := innermost state.blocks
  if top < start.indent then
    { state with
      blocks := start.indent :: state.blocks
      pending := insert state.pending (indentPlace state start.indent) .indent next }
  else if start.indent < top then dedent state start.indent start.run next
  else state

/-! ## The pass -/

/-- Is the token white space? -/
def isBlank (token : Token) : Bool :=
  token.kind = .space || token.kind = .lineBreak

/-- Remembers that a comment comes next, if it has a line of its own. -/
def noteComment (state : State) : State :=
  match state.lineStart? with
  | some start =>
    if state.depth = 0 then
      let line := ⟨start.run, state.pending.size, start.indent⟩
      { state with commentLines := state.commentLines.push line }
    else state
  | none => state

/-- Keeps a comment among the pending tokens. -/
def comment (state : State) (token : Token) : State :=
  (noteComment state).keep token

/-- The brackets that are open after one more token. A closing bracket too many changes nothing. -/
def depthAfter (depth : Nat) (kind : Kind) : Nat :=
  match kind with
  | .opening _ => depth + 1
  | .closing _ => depth - 1
  | _ => depth

/-- Begins and ends blocks before a piece of code, if it is the first one of its line. -/
def openLine (state : State) (token : Token) : State :=
  match state.lineStart? with
  | some start =>
    if state.depth = 0 then
      { indentation state start (token.span.start, token.offset) with lineStart? := none }
    else state
  | none => state

/-- Settles what is pending, now that a piece of code follows it, and the code itself. -/
def code (state : State) (token : Token) : State :=
  let state := (openLine state token).settle
  { state with
    settled := state.settled.push token
    commentLines := #[]
    lineHasCode := true
    depth := depthAfter state.depth token.kind }

/-- Goes on by one token. -/
def step (state : State) (token : Token) : State :=
  if isBlank token then blank state token
  else
    let state := closeBlanks state
    if token.kind = .comment then comment state token else code state token

/-- Closes the open blocks if the text ended with a line break, and ends the last statement. -/
def finish (text : List Char) (stop : Caret × Nat) (state : State) : List Token :=
  let state := closeBlanks state
  let state :=
    match state.lineStart? with
    | some start =>
      if state.depth = 0 && start.afterBreak then dedent state 0 start.run stop else state
    | none => state
  let tokens := state.settled.toList ++ state.pending.toList
  if text.isEmpty then tokens else tokens ++ [.zeroWidth .statementBreak stop.1 stop.2]

/-- The place after the last of some tokens. -/
def stopOf (tokens : List Token) : Caret × Nat :=
  match tokens.getLast? with
  | some last => (last.span.stop, last.stop)
  | none => ({}, 0)

end Layout

/-- Merges the white space among the tokens of a text and adds the tokens that its indentation
stands for. -/
def layout (text : List Char) (tokens : List Token) : List Token :=
  Layout.finish text (Layout.stopOf tokens) (tokens.foldl Layout.step { remaining := { text } })

end StarlarkSyntax
