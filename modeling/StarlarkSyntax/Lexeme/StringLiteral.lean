import StarlarkSyntax.Lexeme.Basic
/-!
# String literals

A literal is an optional prefix, a quote or three of them, its contents, and the same quotes again.
The prefix is an `r`, which makes the literal raw, a `b`, which makes it a literal of bytes, or both
in either order and in either case.

How far a literal reaches and whether its escapes are valid are two separate questions. `extent`
answers the first: a backslash always takes the next character with it, whatever that is, and the
literal ends at the first closing quotes that are left, so the prefix makes no difference. A literal
with single quotes also ends, unclosed, before a line feed. `invalidEscape?` answers the second for
the contents of a literal that is closed and not raw.
-/

set_option autoImplicit false

namespace StarlarkSyntax.Lexeme

/-! ## Where a literal begins -/

/-- Can the character open a literal? -/
def isQuote (c : Char) : Bool := c = '\'' || c = '"'

/-- Does the letter in a prefix make the literal raw? -/
def isRawLetter (c : Char) : Bool := c = 'r' || c = 'R'

/-- Does the letter in a prefix make it a literal of bytes? -/
def isBytesLetter (c : Char) : Bool := c = 'b' || c = 'B'

/-- The letters before the opening quote, if the text begins with a string literal. -/
def stringLetters? : List Char → Option (List Char)
  | c :: text =>
    if isQuote c then some []
    else match text with
      | d :: text =>
        if (isRawLetter c || isBytesLetter c) && isQuote d then some [c]
        else match text with
          | e :: _ =>
            if (isRawLetter c && isBytesLetter d || isBytesLetter c && isRawLetter d) && isQuote e
            then some [c, d]
            else none
          | [] => none
      | [] => none
  | [] => none

/-! ## How far a literal reaches -/

/-- Where the contents of a literal end. -/
inductive Extent where
  /-- The closing quotes come after this many characters. -/
  | closed (length : Nat)
  /-- There are no closing quotes; the literal is given up after this many characters. -/
  | unclosed (length : Nat)
deriving DecidableEq, Inhabited

/-- Looks for the closing quotes, when `read` characters of the contents have been passed. -/
def extentFrom (quote : Char) (triple : Bool) (read : Nat) : List Char → Extent
  | [] => .unclosed read
  | [c] =>
    if c = '\\' then .unclosed (read + 1)
    else if c = '\n' && !triple then .unclosed read
    else if c = quote && !triple then .closed read
    else .unclosed (read + 1)
  | c :: d :: text =>
    if c = '\\' then extentFrom quote triple (read + 2) text
    else if c = '\n' && !triple then .unclosed read
    else if c = quote && (!triple || (d = quote && text.head? = some quote)) then .closed read
    else extentFrom quote triple (read + 1) (d :: text)

/-- Where the contents of a literal end, for the text after its opening quotes. -/
def extent (quote : Char) (triple : Bool) (text : List Char) : Extent :=
  extentFrom quote triple 0 text

/-! ## Escapes -/

/-- The characters that a backslash may stand before on their own. -/
def plainEscapes : List Char :=
  ['a', 'b', 'f', 'n', 'r', 't', 'v', '\\', '\'', '"', '\n']

/-- Is the character a hexadecimal digit? -/
def isHexDigit (c : Char) : Bool :=
  c.isDigit || ('a' ≤ c && c ≤ 'f') || ('A' ≤ c && c ≤ 'F')

/-- How many hexadecimal digits must follow an escape letter. -/
def escapeDigits? (c : Char) : Option Nat :=
  if c = 'x' then some 2 else if c = 'u' then some 4 else if c = 'U' then some 8 else none

/-- Is what follows a backslash an escape? Octal escapes have up to three digits, of which only the
first is needed. -/
def isEscape (c : Char) (text : List Char) : Bool :=
  plainEscapes.contains c || ('0' ≤ c && c ≤ '7') ||
    (escapeDigits? c).any fun count =>
      (text.take count).length == count && (text.take count).all isHexDigit

/-- The first backslash in the contents of a literal that begins no escape: the position after it,
when `read` characters have been passed, and the character that stands there. -/
def invalidEscape? (read : Nat) : List Char → Option (Nat × Char)
  | [] => none
  | [_] => none
  | c :: d :: text =>
    if c = '\\' then
      if isEscape d text then invalidEscape? (read + 2) text else some (read + 1, d)
    else
      invalidEscape? (read + 1) (d :: text)

/-! ## The literal -/

/-- The literal of which the letters and the quote have been recognised; the text is what follows
the first opening quote. -/
def quoted (letters : List Char) (quote : Char) (text : List Char) : Lexeme :=
  let triple := text.take 2 == [quote, quote]
  let quotes := if triple then 3 else 1
  let start := letters.length + quotes
  let contents := text.drop (quotes - 1)
  match extent quote triple contents with
  | .unclosed length => ofFault (start + length) .unclosedString 0
  | .closed length =>
    let total := start + length + quotes
    let kind := if letters.any isBytesLetter then Kind.bytes else Kind.string
    if letters.any isRawLetter then ofKind total kind
    else match invalidEscape? 0 (contents.take length) with
      | some (position, c) => ofFault total (.invalidEscape c) (start + position)
      | none => ofKind total kind

/-- The string literal at the beginning of a text, if there is one. -/
def stringLiteral? (text : List Char) : Option Lexeme :=
  match stringLetters? text with
  | none => none
  | some letters =>
    match text.drop letters.length with
    | quote :: rest => some (quoted letters quote rest)
    | [] => none

end StarlarkSyntax.Lexeme
