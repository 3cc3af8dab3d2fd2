import StarlarkSyntax.Cursor
/-!
# The languages of tokens

What a token of each kind may look like, said without any rule for reading it: a text belongs to a kind
(`Lexical`) if it is spelled like one, whatever comes before or after it. Several kinds may have members
that begin alike, and one member may begin another one; which of them is read is the subject of
`StarlarkSyntax.Proofs.Lexing.Munch`.
-/

set_option autoImplicit false

namespace StarlarkSyntax.Language

open Lexeme Unicode

/-- One or more characters that pass a test. -/
structure Run (test : Char → Prop) (text : List Char) : Prop where
  some : text ≠ []
  all : ∀ c ∈ text, test c

/-! ## White space and words -/

/-- White space inside a line, or the end of a line after a backslash. -/
inductive Space : List Char → Prop
  | run {text : List Char} : Run (isBlankInLine · = true) text → Space text
  | joined : Space ['\\', '\n']
  | joinedCarriage : Space ['\\', '\r', '\n']

/-- A name or a reserved word. -/
inductive Word : List Char → Prop
  | mk {c : Char} {rest : List Char} : isIdentifierStart c = true →
      (∀ d ∈ rest, isIdentifierContinue d = true) → Word (c :: rest)

/-! ## Numbers -/

def decimalDigits : List Char := "0123456789".toList

def hexadecimalDigits : List Char := "0123456789abcdefABCDEF".toList

def octalDigits : List Char := "01234567".toList

def binaryDigits : List Char := "01".toList

/-- One or more digits. -/
abbrev Digits (alphabet : List Char) : List Char → Prop := Run (· ∈ alphabet)

inductive IntegerLiteral : List Char → Prop
  | decimal {text : List Char} : Digits decimalDigits text → IntegerLiteral text
  | hexadecimal {letter : Char} {text : List Char} : letter = 'x' ∨ letter = 'X' →
      Digits hexadecimalDigits text → IntegerLiteral ('0' :: letter :: text)
  | octal {letter : Char} {text : List Char} : letter = 'o' ∨ letter = 'O' →
      Digits octalDigits text → IntegerLiteral ('0' :: letter :: text)
  | binary {letter : Char} {text : List Char} : letter = 'b' ∨ letter = 'B' →
      Digits binaryDigits text → IntegerLiteral ('0' :: letter :: text)

inductive Exponent : List Char → Prop
  | mk {letter : Char} {sign text : List Char} : letter = 'e' ∨ letter = 'E' →
      sign = [] ∨ sign = ['+'] ∨ sign = ['-'] → Digits decimalDigits text →
      Exponent (letter :: sign ++ text)

/-- Nothing, or a text of a language. -/
def Optional (language : List Char → Prop) (text : List Char) : Prop := text = [] ∨ language text

inductive FloatLiteral : List Char → Prop
  | whole {whole fraction exponent : List Char} : Digits decimalDigits whole →
      Optional (Digits decimalDigits) fraction → Optional Exponent exponent →
      FloatLiteral (whole ++ '.' :: fraction ++ exponent)
  | point {fraction exponent : List Char} : Digits decimalDigits fraction →
      Optional Exponent exponent → FloatLiteral ('.' :: fraction ++ exponent)
  | exponent {whole exponent : List Char} : Digits decimalDigits whole → Exponent exponent →
      FloatLiteral (whole ++ exponent)

/-! ## Strings -/

/-- The letters before the quotes: are escapes left alone, and is it a literal of bytes? -/
inductive Letters : Bool → Bool → List Char → Prop
  | none : Letters false false []
  | raw {r : Char} : r = 'r' ∨ r = 'R' → Letters true false [r]
  | bytes {b : Char} : b = 'b' ∨ b = 'B' → Letters false true [b]
  | rawBytes {r b : Char} : r = 'r' ∨ r = 'R' → b = 'b' ∨ b = 'B' → Letters true true [r, b]
  | bytesRaw {b r : Char} : b = 'b' ∨ b = 'B' → r = 'r' ∨ r = 'R' → Letters true true [b, r]

/-- The characters that are an escape with a backslash alone before them. -/
def escapeLetters : List Char := "abfnrtv\\'\"\n".toList

/-- A character after a backslash that makes an escape, by what follows it. Of the octal digits only the
first one is needed. -/
inductive Escape : Char → List Char → Prop
  | letter {c : Char} (rest : List Char) : c ∈ escapeLetters → Escape c rest
  | octal {c : Char} (rest : List Char) : c ∈ octalDigits → Escape c rest
  | hexadecimal {c : Char} {digits : List Char} (rest : List Char) :
      (c, digits.length) ∈ [('x', 2), ('u', 4), ('U', 8)] → (∀ d ∈ digits, d ∈ hexadecimalDigits) →
      Escape c (digits ++ rest)

/-- What follows the opening quotes of a literal, up to the first closing quotes that no backslash stands
before, and with these. Only three quotes may have the end of a line between them. -/
inductive Closes (raw : Bool) (quotes : List Char) : List Char → Prop
  | close : Closes raw quotes quotes
  | escape {c : Char} {rest : List Char} : raw = true ∨ Escape c rest → Closes raw quotes rest →
      Closes raw quotes ('\\' :: c :: rest)
  | char {c : Char} {rest : List Char} : c ≠ '\\' → (c = '\n' → quotes.length = 3) →
      ¬quotes <+: c :: rest → Closes raw quotes rest → Closes raw quotes (c :: rest)

/-- One quote, or three of them. -/
inductive Quotes : List Char → Prop
  | one {quote : Char} : quote = '\'' ∨ quote = '"' → Quotes [quote]
  | three {quote : Char} : quote = '\'' ∨ quote = '"' → Quotes [quote, quote, quote]

/-- A string, or a literal of bytes. -/
inductive StringLiteral (bytes : Bool) : List Char → Prop
  | mk {raw : Bool} {letters quotes text : List Char} : Letters raw bytes letters → Quotes quotes →
      Closes raw quotes text → StringLiteral bytes (letters ++ quotes ++ text)

end Language

open Language in
/-- The texts that may be a token of a kind. There are none for what is no token, and those of layout are
not read. -/
inductive Lexical : Kind → List Char → Prop
  | space {text : List Char} : Space text → Lexical .space text
  | lineBreak : Lexical .lineBreak ['\n']
  | comment {text : List Char} : '\n' ∉ text → Lexical .comment ('#' :: text)
  | identifier {text : List Char} : Word text → (∀ word : Reserved, text ≠ word.spelling.toList) →
      Lexical .identifier text
  | int {text : List Char} : IntegerLiteral text → Lexical .int text
  | float {text : List Char} : FloatLiteral text → Lexical .float text
  | string {text : List Char} : StringLiteral false text → Lexical .string text
  | bytes {text : List Char} : StringLiteral true text → Lexical .bytes text
  | reserved (word : Reserved) : Lexical (.reserved word) word.spelling.toList
  | operator (symbol : Operator) : Lexical (.operator symbol) symbol.spelling.toList
  | compoundAssign {symbol : Operator} : symbol.hasCompoundForm = true →
      Lexical (.compoundAssign symbol) (symbol.spelling.toList ++ ['='])
  | equals : Lexical .equals ['=']
  | colon : Lexical .colon [':']
  | comma : Lexical .comma [',']
  | semicolon : Lexical .semicolon [';']
  | dot : Lexical .dot ['.']
  | opening (delimiter : Delimiter) :
      Lexical (.opening delimiter) delimiter.openingSpelling.toList
  | closing (delimiter : Delimiter) :
      Lexical (.closing delimiter) delimiter.closingSpelling.toList

namespace Language

variable {raw bytes : Bool} {quotes text : List Char} {kind : Kind}

theorem Word.ne_nil (word : Word text) : text ≠ [] := by
  cases word
  exact List.cons_ne_nil _ _

theorem IntegerLiteral.ne_nil (integer : IntegerLiteral text) : text ≠ [] := by
  cases integer with
  | decimal digits => exact digits.some
  | _ => exact List.cons_ne_nil _ _

theorem FloatLiteral.ne_nil (float : FloatLiteral text) : text ≠ [] := by
  cases float with
  | whole digits => simp
  | point digits => simp
  | exponent digits => exact List.append_ne_nil_of_left_ne_nil digits.some _

theorem Quotes.ne_nil (quotes' : Quotes quotes) : quotes ≠ [] := by
  cases quotes' <;> exact List.cons_ne_nil _ _

theorem Closes.length_le (closes : Closes raw quotes text) : quotes.length ≤ text.length := by
  induction closes with
  | close => exact Nat.le_refl _
  | escape _ _ ih => exact Nat.le_add_right_of_le (Nat.le_add_right_of_le ih)
  | char _ _ _ _ ih => exact Nat.le_add_right_of_le ih

theorem StringLiteral.ne_nil (literal : StringLiteral bytes text) : text ≠ [] := by
  cases literal with
  | mk letters quotes closes =>
      rw [List.append_assoc]
      exact List.append_ne_nil_of_right_ne_nil _ (List.append_ne_nil_of_left_ne_nil quotes.ne_nil _)

end Language

open Language in
/-- No token is of no width. -/
theorem Lexical.ne_nil {kind : Kind} {text : List Char} (lexical : Lexical kind text) : text ≠ [] := by
  cases lexical with
  | space space =>
      cases space with
      | run blanks => exact blanks.some
      | _ => exact List.cons_ne_nil _ _
  | identifier word _ => exact word.ne_nil
  | int integer => exact integer.ne_nil
  | float float => exact float.ne_nil
  | string literal => exact literal.ne_nil
  | bytes literal => exact literal.ne_nil
  | reserved word => cases word <;> exact List.cons_ne_nil _ _
  | operator symbol => cases symbol <;> exact List.cons_ne_nil _ _
  | compoundAssign => simp
  | opening delimiter => cases delimiter <;> exact List.cons_ne_nil _ _
  | closing delimiter => cases delimiter <;> exact List.cons_ne_nil _ _
  | _ => exact List.cons_ne_nil _ _

end StarlarkSyntax
