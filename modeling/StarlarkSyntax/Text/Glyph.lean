import StarlarkSyntax.Unicode.Width
/-!
# Texts as a terminal shows them

A terminal draws most characters of a text one by one, but an escape character makes it swallow what
comes next. With an opening square bracket after it begins a sequence that lasts to its final
character, and a whole sequence is not seen at all. Any other character after an escape character
is swallowed alone, and a sequence without a final character swallows all that is left.

A glyph is what is drawn or swallowed as one. `textOf_ofText` says that the glyphs of a text
together are the text.
-/

set_option autoImplicit false

namespace StarlarkSyntax.Text

/-- What a terminal draws or swallows as one. -/
inductive Glyph where
  | character (c : Char)
  /-- An escape character that begins no whole sequence, and what it swallows. -/
  | stray (swallowed : List Char)
  /-- A whole escape sequence, of which this is what comes after the escape character. -/
  | sequence (text : List Char)
deriving DecidableEq, Inhabited

namespace Glyph

/-- The character that makes a terminal swallow what comes next. -/
def escape : Char := '\x1b'

/-- Is the character the last one of an escape sequence? -/
def isFinal (c : Char) : Bool :=
  '@' ≤ c && c ≤ '~'

/-- Is the character a control? -/
def isControl (c : Char) : Bool :=
  c < ' ' || ('\x7f' ≤ c && c < '\u00A0')

/-- The characters of a glyph. -/
def text : Glyph → List Char
  | .character c => [c]
  | .stray swallowed => escape :: swallowed
  | .sequence text => escape :: text

/-- The columns that a glyph takes when texts are wrapped. -/
def columns : Glyph → Nat
  | .character c => if isControl c then 0 else Unicode.charColumns c
  | _ => 0

/-- Is the glyph a whole escape sequence? -/
def isSequence : Glyph → Bool
  | .sequence _ => true
  | _ => false

/-- How many spaces a glyph ends in. Only what an escape character swallowed can end in some. -/
def finalSpaces : Glyph → Nat
  | .stray swallowed => (swallowed.reverse.takeWhile (· == ' ')).length
  | _ => 0

/-- A glyph without the spaces that it ends in. -/
def withoutFinalSpaces : Glyph → Glyph
  | .stray swallowed => .stray (swallowed.reverse.dropWhile (· == ' ')).reverse
  | glyph => glyph

/-- The characters of some glyphs. -/
def textOf (glyphs : List Glyph) : List Char :=
  glyphs.flatMap text

/-- The columns that some glyphs take. -/
def columnsOf (glyphs : List Glyph) : Nat :=
  glyphs.foldl (fun columns glyph => columns + glyph.columns) 0

/-! ## The glyphs of a text -/

/-- How far a text has been read. -/
structure Reading where
  /-- The glyphs read, last first. -/
  glyphs : List Glyph := []
  /-- What an escape character has swallowed so far, last character first, if it goes on. -/
  swallowed? : Option (List Char) := none
deriving Inhabited

/-- Reads one more character. -/
def Reading.take (reading : Reading) (c : Char) : Reading :=
  match reading.swallowed? with
  | none =>
    if c = escape then { reading with swallowed? := some [] }
    else { reading with glyphs := .character c :: reading.glyphs }
  | some [] =>
    if c = '[' then { reading with swallowed? := some [c] }
    else ⟨.stray [c] :: reading.glyphs, none⟩
  | some swallowed =>
    if isFinal c then ⟨.sequence (c :: swallowed).reverse :: reading.glyphs, none⟩
    else { reading with swallowed? := some (c :: swallowed) }

/-- The glyphs, now that the text has ended. -/
def Reading.finish (reading : Reading) : List Glyph :=
  match reading.swallowed? with
  | none => reading.glyphs.reverse
  | some swallowed => (.stray swallowed.reverse :: reading.glyphs).reverse

/-- The glyphs of a text. -/
def ofText (text : List Char) : List Glyph :=
  (text.foldl Reading.take {}).finish

/-- The spaces that a glyph ends in and the rest of it together are the glyph. -/
theorem text_withoutFinalSpaces (glyph : Glyph) :
    glyph.withoutFinalSpaces.text ++ List.replicate glyph.finalSpaces ' ' = glyph.text := by
  cases glyph with
  | stray swallowed =>
    have spaces : List.replicate (swallowed.reverse.takeWhile (· == ' ')).length ' ' =
        (swallowed.reverse.takeWhile (· == ' ')).reverse := by
      refine (List.eq_replicate_iff.2 ⟨by simp, fun c member => ?_⟩).symm
      simpa using List.all_eq_true.1 List.all_takeWhile c (List.mem_reverse.1 member)
    simp only [withoutFinalSpaces, finalSpaces, text, List.cons_append, spaces]
    rw [← List.reverse_append, List.takeWhile_append_dropWhile, List.reverse_reverse]
  | _ => simp [withoutFinalSpaces, finalSpaces]

/-- The characters read. -/
def Reading.text (reading : Reading) : List Char :=
  textOf reading.finish

@[simp] theorem textOf_nil : textOf [] = [] := rfl

@[simp] theorem textOf_cons (glyph : Glyph) (glyphs : List Glyph) :
    textOf (glyph :: glyphs) = glyph.text ++ textOf glyphs := rfl

theorem textOf_append (s t : List Glyph) : textOf (s ++ t) = textOf s ++ textOf t := by
  simp [textOf]

theorem Reading.text_take (reading : Reading) (c : Char) :
    (reading.take c).text = reading.text ++ [c] := by
  obtain ⟨glyphs, swallowed?⟩ := reading
  match swallowed? with
  | none =>
    by_cases isEscape : c = escape <;>
      simp [take, Reading.text, finish, isEscape, textOf, Glyph.text]
  | some [] =>
    by_cases isBracket : c = '[' <;>
      simp [take, Reading.text, finish, isBracket, textOf, Glyph.text]
  | some (d :: swallowed) =>
    by_cases last : isFinal c = true <;>
      simp [take, Reading.text, finish, last, textOf, Glyph.text]

theorem Reading.text_foldl (text : List Char) (reading : Reading) :
    (text.foldl Reading.take reading).text = reading.text ++ text := by
  induction text generalizing reading with
  | nil => simp
  | cons c text ih => simp [ih, text_take]

/-- The glyphs of a text together are the text. -/
theorem textOf_ofText (text : List Char) : textOf (ofText text) = text :=
  Reading.text_foldl text {}

end Glyph

end StarlarkSyntax.Text
