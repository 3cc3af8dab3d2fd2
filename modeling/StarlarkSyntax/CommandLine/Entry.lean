import StarlarkSyntax.Lexed
import StarlarkSyntax.Unicode.WhiteSpace
/-!
# Entries

An entry is what is typed in until it makes sense to read it. It goes on as long as a bracket is
open, however deep. A line that ends with a colon begins a block, and from then on the entry goes on
until a blank line. While a bracket is open, a blank line ends nothing.
-/

set_option autoImplicit false

namespace StarlarkSyntax.CommandLine

/-- How many brackets are open after a token; one that closes nothing changes nothing. -/
def bracketsAfter (opened : Nat) (token : Token) : Nat :=
  match token.kind with
  | .opening _ => opened + 1
  | .closing _ => opened - 1
  | _ => opened

/-- How many brackets are open after some tokens. -/
def openBrackets (tokens : List Token) : Nat :=
  tokens.foldl bracketsAfter 0

/-- Is a colon the last of some tokens that is neither trivia nor layout? -/
def endsWithColon (tokens : List Token) : Bool :=
  (tokens.filter fun token => !token.kind.isTrivia && !token.kind.isLayout).getLast?
    |>.any (·.kind == .colon)

/-- What has been typed of an entry so far. -/
structure Entry where
  /-- The lines, with a line feed between any two. -/
  text : List Char
  /-- How many brackets are open at its end. -/
  opened : Nat
  /-- Has a block begun? -/
  block : Bool
deriving DecidableEq, Inhabited

/-- Where an entry is after a line. -/
inductive Progress where
  /-- There is nothing more to come. -/
  | finished (text : List Char)
  /-- There have to be more lines. -/
  | unfinished (entry : Entry)
deriving DecidableEq, Inhabited

namespace Entry

/-- An entry with some text, in which a block may have begun before. -/
def ofText (text : List Char) (block : Bool) : Entry :=
  let tokens := (tokenize text).tokens
  ⟨text, openBrackets tokens, block || endsWithColon tokens⟩

/-- An entry of one line. -/
def ofLine (line : List Char) : Entry :=
  ofText line false

/-- An entry with one more line. -/
def addLine (entry : Entry) (line : List Char) : Entry :=
  ofText (entry.text ++ '\n' :: line) entry.block

/-- Is a bracket open at the end of an entry? -/
def isOpen (entry : Entry) : Bool :=
  entry.opened != 0

/-- The text of a whole entry, whose last line ends like the others. -/
def whole (entry : Entry) : List Char :=
  entry.text ++ ['\n']

/-- Finishes an entry that needs no more lines. -/
def settle (entry : Entry) : Progress :=
  if entry.isOpen || entry.block then .unfinished entry else .finished entry.whole

/-- Begins an entry. -/
def start (line : List Char) : Progress :=
  (ofLine line).settle

/-- Goes on with an entry. The blank line that ends a block is not part of it. -/
def next (entry : Entry) (line : List Char) : Progress :=
  if !entry.isOpen && Unicode.isBlank line then .finished entry.whole
  else (entry.addLine line).settle

end Entry
end StarlarkSyntax.CommandLine
