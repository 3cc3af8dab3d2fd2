import StarlarkSyntax.Unicode.Printable
/-!
# Quoted texts

A text is quoted between double quotes so that any two texts have different quoted forms and every
quoted form is a single line that can be read. The quote, the backslash and the four commonest
controls are written with a backslash and one character. Any other character that cannot be shown
as it is, or that would be drawn onto its neighbour, is written by its code point in hexadecimal
digits between braces.
-/

set_option autoImplicit false

namespace StarlarkSyntax.Text

open StarlarkSyntax.Unicode

/-- The character that stands after a backslash for one of the characters that have a short form. -/
def shortEscape? (c : Char) : Option Char :=
  match c with
  | '\x00' => some '0'
  | '\t' => some 't'
  | '\n' => some 'n'
  | '\r' => some 'r'
  | '"' => some '"'
  | '\\' => some '\\'
  | _ => none

/-- How one character is written inside a quoted text. -/
def escape (c : Char) : List Char :=
  match shortEscape? c with
  | some short => ['\\', short]
  | none =>
    if isPrintable c && !isGraphemeExtend c then [c]
    else ['\\', 'u', '{'] ++ Nat.toDigits 16 c.toNat ++ ['}']

/-- A text between double quotes. -/
def quote (text : List Char) : List Char :=
  '"' :: (text.flatMap escape ++ ['"'])

theorem escape_ne_nil (c : Char) : escape c ≠ [] := by
  unfold escape
  split
  · simp
  · split <;> simp

@[simp] theorem quote_nil : quote [] = ['"', '"'] := rfl

end StarlarkSyntax.Text
