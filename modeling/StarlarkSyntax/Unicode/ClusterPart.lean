import StarlarkSyntax.Unicode.Emoji
import StarlarkSyntax.Unicode.Printable
/-!
# The parts that characters play in clusters

A reader takes some runs of characters for a single one: a letter with the accents drawn onto it, a
syllable spelled with several letters, a flag, a picture made of several. Such a run is a cluster.
Whether a character belongs to the cluster before it depends only on the parts that it and the
characters of that cluster play, and `ClusterPart.ofChar` is the part of a character.

`ClusterPart.ofChar_printable` says that printable ASCII plays no part in the clusters around it.
-/

set_option autoImplicit false

namespace StarlarkSyntax.Unicode

/-! ## Tables -/

/-- The controls above ASCII, with the formats and separators that show nothing. -/
def clusterControlRanges : Ranges :=
  [(0x0080, 0x009F), (0x00AD, 0x00AD), (0x061C, 0x061C), (0x180E, 0x180E), (0x200B, 0x200B),
   (0x200E, 0x200F), (0x2028, 0x202E), (0x2060, 0x206F), (0xFEFF, 0xFEFF), (0xFFF0, 0xFFFB),
   (0x13430, 0x1343F), (0x1BCA0, 0x1BCA3), (0x1D173, 0x1D17A), (0xE0000, 0xE001F),
   (0xE0080, 0xE00FF), (0xE01F0, 0xE0FFF)]

/-- The marks that stand beside the character that they belong to. -/
def spacingMarkRanges : Ranges :=
  [(0x0903, 0x0903), (0x093B, 0x093B), (0x093E, 0x0940), (0x0949, 0x094C), (0x094E, 0x094F),
   (0x0982, 0x0983), (0x09BF, 0x09C0), (0x09C7, 0x09C8), (0x09CB, 0x09CC), (0x0A03, 0x0A03),
   (0x0A3E, 0x0A40), (0x0A83, 0x0A83), (0x0ABE, 0x0AC0), (0x0AC9, 0x0AC9), (0x0ACB, 0x0ACC),
   (0x0B02, 0x0B03), (0x0B40, 0x0B40), (0x0B47, 0x0B48), (0x0B4B, 0x0B4C), (0x0BBF, 0x0BBF),
   (0x0BC1, 0x0BC2), (0x0BC6, 0x0BC8), (0x0BCA, 0x0BCC), (0x0C01, 0x0C03), (0x0C41, 0x0C44),
   (0x0C82, 0x0C83), (0x0CBE, 0x0CBE), (0x0CC1, 0x0CC1), (0x0CC3, 0x0CC4), (0x0CF3, 0x0CF3),
   (0x0D02, 0x0D03), (0x0D3F, 0x0D40), (0x0D46, 0x0D48), (0x0D4A, 0x0D4C), (0x0D82, 0x0D83),
   (0x0DD0, 0x0DD1), (0x0DD8, 0x0DDE), (0x0DF2, 0x0DF3), (0x0E33, 0x0E33), (0x0EB3, 0x0EB3),
   (0x0F3E, 0x0F3F), (0x0F7F, 0x0F7F), (0x1031, 0x1031), (0x103B, 0x103C), (0x1056, 0x1057),
   (0x1084, 0x1084), (0x17B6, 0x17B6), (0x17BE, 0x17C5), (0x17C7, 0x17C8), (0x1923, 0x1926),
   (0x1929, 0x192B), (0x1930, 0x1931), (0x1933, 0x1938), (0x1A19, 0x1A1A), (0x1A55, 0x1A55),
   (0x1A57, 0x1A57), (0x1A6D, 0x1A72), (0x1B04, 0x1B04), (0x1B3E, 0x1B41), (0x1B82, 0x1B82),
   (0x1BA1, 0x1BA1), (0x1BA6, 0x1BA7), (0x1BE7, 0x1BE7), (0x1BEA, 0x1BEC), (0x1BEE, 0x1BEE),
   (0x1C24, 0x1C2B), (0x1C34, 0x1C35), (0x1CE1, 0x1CE1), (0x1CF7, 0x1CF7), (0xA823, 0xA824),
   (0xA827, 0xA827), (0xA880, 0xA881), (0xA8B4, 0xA8C3), (0xA952, 0xA952), (0xA983, 0xA983),
   (0xA9B4, 0xA9B5), (0xA9BA, 0xA9BB), (0xA9BE, 0xA9BF), (0xAA2F, 0xAA30), (0xAA33, 0xAA34),
   (0xAA4D, 0xAA4D), (0xAAEB, 0xAAEB), (0xAAEE, 0xAAEF), (0xAAF5, 0xAAF5), (0xABE3, 0xABE4),
   (0xABE6, 0xABE7), (0xABE9, 0xABEA), (0xABEC, 0xABEC), (0x11000, 0x11000), (0x11002, 0x11002),
   (0x11082, 0x11082), (0x110B0, 0x110B2), (0x110B7, 0x110B8), (0x1112C, 0x1112C),
   (0x11145, 0x11146), (0x11182, 0x11182), (0x111B3, 0x111B5), (0x111BF, 0x111BF),
   (0x111CE, 0x111CE), (0x1122C, 0x1122E), (0x11232, 0x11233), (0x112E0, 0x112E2),
   (0x11302, 0x11303), (0x1133F, 0x1133F), (0x11341, 0x11344), (0x11347, 0x11348),
   (0x1134B, 0x1134C), (0x11362, 0x11363), (0x113B9, 0x113BA), (0x113CA, 0x113CA),
   (0x113CC, 0x113CD), (0x11435, 0x11437), (0x11440, 0x11441), (0x11445, 0x11445),
   (0x114B1, 0x114B2), (0x114B9, 0x114B9), (0x114BB, 0x114BC), (0x114BE, 0x114BE),
   (0x114C1, 0x114C1), (0x115B0, 0x115B1), (0x115B8, 0x115BB), (0x115BE, 0x115BE),
   (0x11630, 0x11632), (0x1163B, 0x1163C), (0x1163E, 0x1163E), (0x116AC, 0x116AC),
   (0x116AE, 0x116AF), (0x11726, 0x11726), (0x1182C, 0x1182E), (0x11838, 0x11838),
   (0x11931, 0x11935), (0x11937, 0x11938), (0x11940, 0x11940), (0x11942, 0x11942),
   (0x119D1, 0x119D3), (0x119DC, 0x119DF), (0x119E4, 0x119E4), (0x11A39, 0x11A39),
   (0x11A57, 0x11A58), (0x11A97, 0x11A97), (0x11C2F, 0x11C2F), (0x11C3E, 0x11C3E),
   (0x11CA9, 0x11CA9), (0x11CB1, 0x11CB1), (0x11CB4, 0x11CB4), (0x11D8A, 0x11D8E),
   (0x11D93, 0x11D94), (0x11D96, 0x11D96), (0x11EF5, 0x11EF6), (0x11F03, 0x11F03),
   (0x11F34, 0x11F35), (0x11F3E, 0x11F3F), (0x1612A, 0x1612C), (0x16F51, 0x16F87)]

/-- The characters that belong to what comes after them. -/
def forerunnerRanges : Ranges :=
  [(0x0600, 0x0605), (0x06DD, 0x06DD), (0x070F, 0x070F), (0x0890, 0x0891), (0x08E2, 0x08E2),
   (0x0D4E, 0x0D4E), (0x110BD, 0x110BD), (0x110CD, 0x110CD), (0x111C2, 0x111C3), (0x113D1, 0x113D1),
   (0x1193F, 0x1193F), (0x11941, 0x11941), (0x11A3A, 0x11A3A), (0x11A84, 0x11A89),
   (0x11D46, 0x11D46), (0x11F02, 0x11F02)]

/-- The characters that are pictures, or that may become some. -/
def pictureRanges : Ranges :=
  [(0x00A9, 0x00A9), (0x00AE, 0x00AE), (0x203C, 0x203C), (0x2049, 0x2049), (0x2122, 0x2122),
   (0x2139, 0x2139), (0x2194, 0x2199), (0x21A9, 0x21AA), (0x231A, 0x231B), (0x2328, 0x2328),
   (0x2388, 0x2388), (0x23CF, 0x23CF), (0x23E9, 0x23F3), (0x23F8, 0x23FA), (0x24C2, 0x24C2),
   (0x25AA, 0x25AB), (0x25B6, 0x25B6), (0x25C0, 0x25C0), (0x25FB, 0x25FE), (0x2600, 0x2605),
   (0x2607, 0x2612), (0x2614, 0x2685), (0x2690, 0x2705), (0x2708, 0x2712), (0x2714, 0x2714),
   (0x2716, 0x2716), (0x271D, 0x271D), (0x2721, 0x2721), (0x2728, 0x2728), (0x2733, 0x2734),
   (0x2744, 0x2744), (0x2747, 0x2747), (0x274C, 0x274C), (0x274E, 0x274E), (0x2753, 0x2755),
   (0x2757, 0x2757), (0x2763, 0x2767), (0x2795, 0x2797), (0x27A1, 0x27A1), (0x27B0, 0x27B0),
   (0x27BF, 0x27BF), (0x2934, 0x2935), (0x2B05, 0x2B07), (0x2B1B, 0x2B1C), (0x2B50, 0x2B50),
   (0x2B55, 0x2B55), (0x3030, 0x3030), (0x303D, 0x303D), (0x3297, 0x3297), (0x3299, 0x3299),
   (0x1F000, 0x1F0FF), (0x1F10D, 0x1F10F), (0x1F12F, 0x1F12F), (0x1F16C, 0x1F171),
   (0x1F17E, 0x1F17F), (0x1F18E, 0x1F18E), (0x1F191, 0x1F19A), (0x1F1AD, 0x1F1E5),
   (0x1F201, 0x1F20F), (0x1F21A, 0x1F21A), (0x1F22F, 0x1F22F), (0x1F232, 0x1F23A),
   (0x1F23C, 0x1F23F), (0x1F249, 0x1F3FA), (0x1F400, 0x1F53D), (0x1F546, 0x1F64F),
   (0x1F680, 0x1F6FF), (0x1F774, 0x1F77F), (0x1F7D5, 0x1F7FF), (0x1F80C, 0x1F80F),
   (0x1F848, 0x1F84F), (0x1F85A, 0x1F85F), (0x1F888, 0x1F88F), (0x1F8AE, 0x1F8FF),
   (0x1F90C, 0x1F93A), (0x1F93C, 0x1F945), (0x1F947, 0x1FAFF), (0x1FC00, 0x1FFFD)]

/-- The consonants that can be joined to another one by a linker between them. -/
def joinableConsonantRanges : Ranges :=
  [(0x0915, 0x0939), (0x0958, 0x095F), (0x0978, 0x097F), (0x0995, 0x09A8), (0x09AA, 0x09B0),
   (0x09B2, 0x09B2), (0x09B6, 0x09B9), (0x09DC, 0x09DD), (0x09DF, 0x09DF), (0x09F0, 0x09F1),
   (0x0A95, 0x0AA8), (0x0AAA, 0x0AB0), (0x0AB2, 0x0AB3), (0x0AB5, 0x0AB9), (0x0AF9, 0x0AF9),
   (0x0B15, 0x0B28), (0x0B2A, 0x0B30), (0x0B32, 0x0B33), (0x0B35, 0x0B39), (0x0B5C, 0x0B5D),
   (0x0B5F, 0x0B5F), (0x0B71, 0x0B71), (0x0C15, 0x0C28), (0x0C2A, 0x0C39), (0x0C58, 0x0C5A),
   (0x0D15, 0x0D3A)]

/-- The marks that join two consonants. -/
def linkerRanges : Ranges :=
  [(0x094D, 0x094D), (0x09CD, 0x09CD), (0x0ACD, 0x0ACD), (0x0B4D, 0x0B4D), (0x0C4D, 0x0C4D),
   (0x0D4D, 0x0D4D)]

/-- The consonants that begin a spelled syllable. -/
def leadRanges : Ranges :=
  [(0x1100, 0x115F), (0xA960, 0xA97C)]

/-- The vowels of a spelled syllable. -/
def vowelRanges : Ranges :=
  [(0x1160, 0x11A7), (0xD7B0, 0xD7C6), (0x16D63, 0x16D63), (0x16D67, 0x16D6A)]

/-- The consonants that end a spelled syllable. -/
def finalRanges : Ranges :=
  [(0x11A8, 0x11FF), (0xD7CB, 0xD7FB)]

/-- The characters that are whole syllables. -/
def syllableRanges : Ranges :=
  [(0xAC00, 0xD7A3)]

/-- The letters that flags are spelled with, two for each. -/
def flagLetterRanges : Ranges :=
  [(0x1F1E6, 0x1F1FF)]

/-! ## Parts -/

/-- The part that a character plays in a cluster. -/
inductive ClusterPart where
  /-- Any other character. -/
  | other
  | carriageReturn
  | lineFeed
  /-- A control, which is in a cluster with nothing else. -/
  | control
  /-- Drawn onto the character before it. -/
  | extender
  /-- Like an extender, but keeps the consonants on its two sides apart. -/
  | nonJoiner
  /-- Drawn onto the consonant before it, and joins it to the next one. -/
  | linker
  /-- Joins pictures; it belongs to the cluster before it. -/
  | joiner
  /-- Stands beside the character that it belongs to. -/
  | spacingMark
  /-- Belongs to what comes after it. -/
  | forerunner
  /-- The consonant that begins a spelled syllable. -/
  | lead
  /-- The vowel of a spelled syllable. -/
  | vowel
  /-- The consonant that ends a spelled syllable. -/
  | final
  /-- A whole syllable that ends in its vowel. -/
  | openSyllable
  /-- A whole syllable that ends in a final. -/
  | closedSyllable
  /-- One of the two letters that a flag is spelled with. -/
  | flagLetter
  | picture
  /-- A consonant that can be joined to another one. -/
  | consonant
deriving DecidableEq, Inhabited

namespace ClusterPart

/-- Keeps consonants apart that would be joined. -/
def zeroWidthNonJoiner : Char := '\u200C'

/-- The part of an ASCII character. -/
def ofAscii (c : Char) : ClusterPart :=
  if c = '\n' then lineFeed
  else if c = '\r' then carriageReturn
  else if ' ' ≤ c ∧ c ≤ '~' then other
  else control

/-- The part of a character that is drawn onto the one before it. -/
def ofMark (c : Char) : ClusterPart :=
  if c = zeroWidthNonJoiner then nonJoiner
  else if inRanges linkerRanges c then linker
  else extender

/-- The part of a character that is a whole syllable. The syllables with the same lead and vowel are
28 in a row, of which the first one has no final. -/
def ofSyllable (c : Char) : ClusterPart :=
  if (c.toNat - 0xAC00) % 28 = 0 then openSyllable else closedSyllable

/-- The part that a character plays in a cluster. -/
def ofChar (c : Char) : ClusterPart :=
  if c.toNat < 128 then ofAscii c
  else if isGraphemeExtend c || isSkinTone c then ofMark c
  else if c = emojiJoiner then joiner
  else if inRanges clusterControlRanges c then control
  else if inRanges spacingMarkRanges c then spacingMark
  else if inRanges forerunnerRanges c then forerunner
  else if inRanges leadRanges c then lead
  else if inRanges vowelRanges c then vowel
  else if inRanges finalRanges c then final
  else if inRanges syllableRanges c then ofSyllable c
  else if inRanges flagLetterRanges c then flagLetter
  else if inRanges pictureRanges c then picture
  else if inRanges joinableConsonantRanges c then consonant
  else other

/-- Is the character a control, or one that ends a line? -/
def isControl : ClusterPart → Bool
  | carriageReturn | lineFeed | control => true
  | _ => false

/-- Does the character belong to the cluster before it, unless that is a control? -/
def isMark : ClusterPart → Bool
  | extender | nonJoiner | linker | joiner | spacingMark => true
  | _ => false

/-- Printable ASCII plays no part. -/
theorem ofChar_printable {c : Char} (low : ' ' ≤ c) (high : c ≤ '~') : ofChar c = other := by
  have ascii : c.toNat < 128 := Nat.lt_of_le_of_lt (Char.le_def.1 high) (by decide)
  have noLineFeed : c ≠ '\n' := by rintro rfl; exact absurd low (by decide)
  have noReturn : c ≠ '\r' := by rintro rfl; exact absurd low (by decide)
  simp [ofChar, ofAscii, ascii, noLineFeed, noReturn, low, high]

end ClusterPart
end StarlarkSyntax.Unicode
