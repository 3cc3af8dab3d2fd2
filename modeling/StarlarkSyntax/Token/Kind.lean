import StarlarkSyntax.Token.Reserved
import StarlarkSyntax.Token.Operator
/-!
# Kinds of token

The kind of a token is what it means, apart from where it was found. Three kinds are trivia, which
no grammar looks at; four are layout, which take no room in the text and stand for the ends of
statements and for changes of indentation; one is text that is no token at all.

Each kind has two names: `Kind.name` is what messages call it, and `Kind.label` is what a listing
of tokens calls it.
-/

set_option autoImplicit false

namespace StarlarkSyntax

/-- A sort of bracket. -/
inductive Delimiter where
  | brace
  | bracket
  | parenthesis
deriving DecidableEq, Inhabited

/-- What a token is. -/
inductive Kind where
  /-- Spaces, tabs and joined lines. -/
  | space
  /-- The end of a line, with the white space around it. -/
  | lineBreak
  /-- From a hash sign to the end of the line. -/
  | comment
  /-- The end of a logical line. -/
  | statementBreak
  /-- The indentation grows. -/
  | indent
  /-- The indentation shrinks to that of an enclosing block. -/
  | dedent
  /-- The indentation shrinks to none that is in use; a `dedent` follows. -/
  | inconsistentDedent
  | identifier
  | int
  | float
  | string
  | bytes
  | reserved (word : Reserved)
  | operator (symbol : Operator)
  /-- An operator joined with `=`. -/
  | compoundAssign (symbol : Operator)
  | equals
  | colon
  | comma
  | semicolon
  | dot
  | opening (delimiter : Delimiter)
  | closing (delimiter : Delimiter)
  /-- Text that is no token. -/
  | invalid
deriving DecidableEq, Inhabited

namespace Delimiter

/-- Every sort of bracket. -/
def all : List Delimiter := [brace, bracket, parenthesis]

/-- The opening bracket. -/
def openingSpelling : Delimiter → String
  | brace => "\x7b"
  | bracket => "["
  | parenthesis => "("

/-- The closing bracket. -/
def closingSpelling : Delimiter → String
  | brace => "\x7d"
  | bracket => "]"
  | parenthesis => ")"

/-- The name of the brackets in a listing of tokens. -/
def label : Delimiter → String
  | brace => "Brace"
  | bracket => "Bracket"
  | parenthesis => "Parenthesis"

end Delimiter

namespace Kind

/-- The name of the kind in messages. -/
def name : Kind → String
  | space => "space"
  | lineBreak => "line break"
  | comment => "comment"
  | statementBreak => "end of statement"
  | indent => "indent"
  | dedent => "dedent"
  | inconsistentDedent => "inconsistent dedent"
  | identifier => "identifier"
  | int => "integer"
  | float => "float"
  | string => "string"
  | bytes => "bytes"
  | reserved word => word.spelling
  | operator symbol => symbol.spelling
  | compoundAssign symbol => symbol.compoundSpelling
  | equals => "="
  | colon => ":"
  | comma => ","
  | semicolon => ";"
  | dot => "."
  | opening delimiter => delimiter.openingSpelling
  | closing delimiter => delimiter.closingSpelling
  | invalid => "invalid token"

/-- The name of the kind in a listing of tokens. -/
def label : Kind → String
  | space => "Space"
  | lineBreak => "LineBreak"
  | comment => "Comment"
  | statementBreak => "StatementBreak"
  | indent => "Indent"
  | dedent => "Dedent"
  | inconsistentDedent => "InconsistentDedent"
  | identifier => "Identifier"
  | int => "Int"
  | float => "Float"
  | string => "String"
  | bytes => "Bytes"
  | reserved word => "Reserved(" ++ word.label ++ ")"
  | operator symbol => "Operator(" ++ symbol.label ++ ")"
  | compoundAssign symbol => "CompoundAssign(" ++ symbol.label ++ ")"
  | equals => "Equals"
  | colon => "Colon"
  | comma => "Comma"
  | semicolon => "Semicolon"
  | dot => "Dot"
  | opening delimiter => "Open(" ++ delimiter.label ++ ")"
  | closing delimiter => "Close(" ++ delimiter.label ++ ")"
  | invalid => "Invalid"

/-- Every kind. -/
def all : List Kind :=
  [space, lineBreak, comment, statementBreak, indent, dedent, inconsistentDedent, identifier, int,
   float, string, bytes, equals, colon, comma, semicolon, dot, invalid]
    ++ Reserved.all.map reserved
    ++ Operator.longestFirst.map operator
    ++ Operator.longestFirst.map compoundAssign
    ++ Delimiter.all.map opening
    ++ Delimiter.all.map closing

/-- The kind that a listing of tokens calls by a label. -/
def ofLabel? (text : String) : Option Kind :=
  all.find? (·.label == text)

/-- Trivia never matters to a grammar; it is kept so that a tree covers the whole text. -/
def isTrivia : Kind → Bool
  | space | lineBreak | comment => true
  | _ => false

/-- Layout takes no room in the text. -/
def isLayout : Kind → Bool
  | statementBreak | indent | dedent | inconsistentDedent => true
  | _ => false

/-- Is a token of this kind always a literal? -/
def isLiteral : Kind → Bool
  | int | float | string | bytes => true
  | _ => false

/-- Can a grammar see tokens of this kind? Trivia and text that is no token are passed over. -/
def isSignificant (kind : Kind) : Bool :=
  !kind.isTrivia && kind != invalid

theorem mem_all (kind : Kind) : kind ∈ all := by
  cases kind with
  | reserved word => simp [all, Reserved.mem_all]
  | operator symbol => simp [all, Operator.mem_longestFirst]
  | compoundAssign symbol => simp [all, Operator.mem_longestFirst]
  | opening delimiter => cases delimiter <;> simp [all, Delimiter.all]
  | closing delimiter => cases delimiter <;> simp [all, Delimiter.all]
  | _ => simp [all]

end Kind
end StarlarkSyntax
