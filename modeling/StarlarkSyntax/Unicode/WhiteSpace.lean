import StarlarkSyntax.Unicode.Ranges
/-!
# White space

The characters with the property `White_Space` of the Unicode standard, and the texts that hold
nothing else. `isWhiteSpace_of_isWhitespace` says that the white space of ASCII is among them.
-/

set_option autoImplicit false

namespace StarlarkSyntax.Unicode

/-- The white space above ASCII. -/
def whiteSpaceRanges : Ranges :=
  [(0x0085, 0x0085), (0x00A0, 0x00A0), (0x1680, 0x1680), (0x2000, 0x200A), (0x2028, 0x2029),
   (0x202F, 0x202F), (0x205F, 0x205F), (0x3000, 0x3000)]

/-- Is the character white space? -/
def isWhiteSpace (c : Char) : Bool :=
  c == ' ' || ('\t' ≤ c && c ≤ '\r') || inRanges whiteSpaceRanges c

/-- Is there nothing but white space in a text? -/
def isBlank (text : List Char) : Bool :=
  text.all isWhiteSpace

theorem isWhiteSpace_of_isWhitespace {c : Char} (h : c.isWhitespace = true) :
    isWhiteSpace c = true := by
  simp only [Char.isWhitespace, Bool.or_eq_true, decide_eq_true_eq] at h
  rcases h with ((rfl | rfl) | rfl) | rfl <;> decide

end StarlarkSyntax.Unicode
