import StarlarkSyntax.Lexeme.Number
import StarlarkSyntax.Lexeme.StringLiteral
import StarlarkSyntax.Unicode.Identifier
/-!
# The lexical grammar

`lexeme` decides by the first character which rule applies. White space, comments and words run as
far as they can. A backslash before the end of a line joins two lines and is white space; anywhere
else it is a fault. Operators are matched longest first, and a `=` right after an operator that
allows it makes an assignment of the two. A character that begins no token is a fault by itself.
-/

set_option autoImplicit false

namespace StarlarkSyntax.Lexeme

open StarlarkSyntax.Unicode

/-- White space inside a line. -/
def isBlankInLine (c : Char) : Bool :=
  c = ' ' || c = '\t' || c = '\x0c' || c = '\r'

/-- The punctuation marks that are tokens by themselves and begin no longer ones. -/
def punctuation? (c : Char) : Option Kind :=
  match c with
  | '\n' => some .lineBreak
  | ':' => some .colon
  | ';' => some .semicolon
  | ',' => some .comma
  | '(' => some (.opening .parenthesis)
  | ')' => some (.closing .parenthesis)
  | '[' => some (.opening .bracket)
  | ']' => some (.closing .bracket)
  | '{' => some (.opening .brace)
  | '}' => some (.closing .brace)
  | _ => none

/-- What a backslash is, by the text after it. -/
def continuation (text : List Char) : Lexeme :=
  match text with
  | '\n' :: _ => ofKind 2 .space
  | '\r' :: '\n' :: _ => ofKind 3 .space
  | _ => ofFault 1 (.notStartOfToken '\\') 0

/-- A reserved word or a name. -/
def word (text : List Char) : Lexeme :=
  let spelling := text.takeWhile isIdentifierContinue
  match Reserved.ofSpelling? (String.ofList spelling) with
  | some reserved => ofKind spelling.length (.reserved reserved)
  | none => ofKind spelling.length .identifier

/-- The longest operator at the beginning of a text. -/
def longestOperator? (text : List Char) : Option Operator :=
  Operator.longestFirst.find? fun operator => operator.spelling.toList.isPrefixOf text

/-- An operator, an assignment, or a fault. -/
def symbol (c : Char) (text : List Char) : Lexeme :=
  match longestOperator? (c :: text) with
  | some operator =>
    let length := operator.spelling.length
    if operator.hasCompoundForm && ((c :: text).drop length).head? == some '=' then
      ofKind (length + 1) (.compoundAssign operator)
    else
      ofKind length (.operator operator)
  | none => if c = '=' then ofKind 1 .equals else ofFault 1 (.notStartOfToken c) 0

/-- A point, or the number that begins with it. -/
def point (text : List Char) : Lexeme :=
  if (text.head?.map Char.isDigit).getD false then number ('.' :: text) else ofKind 1 .dot

end Lexeme

open Lexeme Unicode in
/-- What stands at the beginning of the text that has `c` as its first character. -/
def lexeme (c : Char) (text : List Char) : Lexeme :=
  if isBlankInLine c then ofKind (run isBlankInLine (c :: text)) .space
  else match punctuation? c with
    | some kind => ofKind 1 kind
    | none =>
      if c = '\\' then continuation text
      else if c = '#' then ofKind (run (· ≠ '\n') (c :: text)) .comment
      else if c = '.' then point text
      else match stringLiteral? (c :: text) with
        | some literal => literal
        | none =>
          if c.isDigit then number (c :: text)
          else if isIdentifierStart c then word (c :: text)
          else symbol c text

end StarlarkSyntax
