import StarlarkSyntax.Text.Glyph
/-!
# Wrapped texts

A text is wrapped to a number of columns line by line. Each line is cut into words, a word into
pieces if it is wider than a line may be, and the words are put into lines so that the total cost is
least. Every line costs something, so that there are few of them; a line that is too wide costs very
much; and a line that is not the last costs the square of the room it leaves, so that the lines
become about equally long. A short single word on the last line costs a little more.

Of several ways with the same cost, the one is taken whose last line begins earliest, and so on for
the lines before it. The spaces at the end of a line are left out.

Control characters and escape sequences take no columns. A sequence belongs to the word that begins
right after it, or else to the word before it, together with the spaces between them. Spaces that an
escape character swallowed at the end of a word still count as spaces after it.

`lineOf_wordsOf` says that the words of a line, with the spaces after each, are the line.
-/

set_option autoImplicit false

namespace StarlarkSyntax.Text

/-! ## Words -/

/-- A word and the number of spaces after it. Spaces at the beginning of a line come after a word
without glyphs. -/
structure Word where
  glyphs : List Glyph
  spaces : Nat
deriving DecidableEq, Inhabited

/-- The characters of a word. -/
def Word.text (word : Word) : List Char :=
  Glyph.textOf word.glyphs

/-- The columns that a word takes. -/
def Word.columns (word : Word) : Nat :=
  Glyph.columnsOf word.glyphs

/-- The words at the end of a line. -/
structure WordsAfter where
  words : List Word := []
  /-- Is the first glyph that can be seen one that begins a word after spaces? -/
  beginsWord : Bool := false
deriving Inhabited

/-- A word whose last glyph may end in spaces, which then come after the word. -/
def Word.ofLast (glyph : Glyph) (spaces : Nat) : Word :=
  ⟨[glyph.withoutFinalSpaces], glyph.finalSpaces + spaces⟩

/-- Puts a glyph before the words at the end of a line, where it belongs to the first of them. -/
def WordsAfter.extend (glyph : Glyph) : List Word → List Word
  | [] => [.ofLast glyph 0]
  | ⟨[], spaces⟩ :: rest => .ofLast glyph spaces :: rest
  | word :: rest => { word with glyphs := glyph :: word.glyphs } :: rest

/-- Puts a space before the words at the end of a line, where it comes after a word whose other
characters are not known yet. -/
def WordsAfter.extendSpaces : List Word → List Word
  | [] => [⟨[], 1⟩]
  | ⟨[], spaces⟩ :: rest => ⟨[], spaces + 1⟩ :: rest
  | words => extend (.character ' ') words

/-- Puts a glyph before the words at the end of a line. -/
def WordsAfter.cons (glyph : Glyph) (after : WordsAfter) : WordsAfter :=
  if glyph.isSequence then { after with words := extend glyph after.words }
  else if glyph ≠ .character ' ' then ⟨extend glyph after.words, true⟩
  else if after.beginsWord then ⟨⟨[], 1⟩ :: after.words, false⟩
  else ⟨extendSpaces after.words, false⟩

/-- The words of a line. -/
def wordsOf (line : List Char) : List Word :=
  ((Glyph.ofText line).foldr WordsAfter.cons {}).words

/-- The characters of some words, with the spaces after each. -/
def lineOf (words : List Word) : List Char :=
  words.flatMap fun word => word.text ++ List.replicate word.spaces ' '

theorem lineOf_cons (word : Word) (words : List Word) :
    lineOf (word :: words) = word.text ++ List.replicate word.spaces ' ' ++ lineOf words := rfl

theorem lineOf_ofLast (glyph : Glyph) (spaces : Nat) (words : List Word) :
    lineOf (.ofLast glyph spaces :: words) = glyph.text ++ lineOf (⟨[], spaces⟩ :: words) := by
  rw [← Glyph.text_withoutFinalSpaces glyph]
  simp [lineOf_cons, Word.ofLast, Word.text, ← List.replicate_append_replicate]

theorem lineOf_extend (glyph : Glyph) (words : List Word) :
    lineOf (WordsAfter.extend glyph words) = glyph.text ++ lineOf words := by
  match words with
  | [] => exact lineOf_ofLast glyph 0 []
  | ⟨[], spaces⟩ :: rest => exact lineOf_ofLast glyph spaces rest
  | ⟨first :: more, spaces⟩ :: rest => simp [WordsAfter.extend, lineOf_cons, Word.text]

theorem lineOf_extendSpaces (words : List Word) :
    lineOf (WordsAfter.extendSpaces words) = ' ' :: lineOf words := by
  match words with
  | [] => rfl
  | ⟨[], spaces⟩ :: rest =>
    simp [WordsAfter.extendSpaces, lineOf_cons, Word.text, List.replicate_succ]
  | ⟨first :: more, spaces⟩ :: rest =>
    exact lineOf_extend (.character ' ') (⟨first :: more, spaces⟩ :: rest)

theorem lineOf_words_cons (glyph : Glyph) (after : WordsAfter) :
    lineOf (WordsAfter.cons glyph after).words = glyph.text ++ lineOf after.words := by
  unfold WordsAfter.cons
  split
  · exact lineOf_extend glyph after.words
  split
  · exact lineOf_extend glyph after.words
  rename_i _ space
  obtain rfl : glyph = .character ' ' := Decidable.not_not.1 space
  split
  · rfl
  · exact lineOf_extendSpaces after.words

/-- The words of a line, with the spaces after each, are the line. -/
theorem lineOf_wordsOf (line : List Char) : lineOf (wordsOf line) = line := by
  have glyphs (glyphs : List Glyph) :
      lineOf (glyphs.foldr WordsAfter.cons {}).words = Glyph.textOf glyphs := by
    induction glyphs with
    | nil => rfl
    | cons glyph glyphs ih => simp [lineOf_words_cons, ih]
  rw [wordsOf, glyphs, Glyph.textOf_ofText]

/-! ## Pieces of words -/

/-- A text that is being cut into pieces. -/
structure Cut where
  /-- The pieces that are done, last first. -/
  pieces : List (List Glyph) := []
  /-- What the next piece has so far, last glyph first. -/
  piece : List Glyph := []
  /-- The columns that it takes. -/
  taken : Nat := 0
deriving Inhabited

/-- Adds a glyph to the last piece, or to a new one if it takes too many columns. A piece has at
least one glyph of some width, and none begins at a whole escape sequence. -/
def Cut.take (width : Nat) (cut : Cut) (glyph : Glyph) : Cut :=
  if !glyph.isSequence ∧ 0 < cut.taken ∧ width < cut.taken + glyph.columns then
    ⟨cut.piece.reverse :: cut.pieces, [glyph], glyph.columns⟩
  else { cut with piece := glyph :: cut.piece, taken := cut.taken + glyph.columns }

/-- The words that the pieces of one word become; the spaces after it go to the last of them. -/
def Cut.words (spaces : Nat) (cut : Cut) : List Word :=
  (⟨cut.piece.reverse, spaces⟩ :: cut.pieces.map (⟨·, 0⟩)).reverse

/-- A word, in pieces if it is wider than a line may be. -/
def Word.cut (width : Nat) (word : Word) : List Word :=
  if width < word.columns then (word.glyphs.foldl (Cut.take width) {}).words word.spaces
  else [word]

/-! ## Lines of words -/

/-- The characters of a line of words, without the spaces at its end. -/
def lineText : List Word → List Char
  | [] => []
  | [word] => word.text
  | word :: words => word.text ++ List.replicate word.spaces ' ' ++ lineText words

/-- The words of a line that is to be wrapped, and how wide the lines made of it may be. -/
structure Paragraph where
  width : Nat
  words : Array Word
  /-- The columns from the first word to the beginning of each, and to the end. -/
  begins : Array Nat
deriving Inhabited

/-- The paragraph of some words. -/
def Paragraph.ofWords (width : Nat) (words : List Word) : Paragraph :=
  let next (begins : Array Nat) (word : Word) : Array Nat :=
    begins.push (begins.back?.getD 0 + word.columns + word.spaces)
  ⟨width, words.toArray, words.foldl next #[0]⟩

/-- The columns that the words between two places take in a line. -/
def Paragraph.columns (paragraph : Paragraph) (start stop : Nat) : Nat :=
  let spaces := (paragraph.words[stop - 1]?.map (·.spaces)).getD 0
  paragraph.begins[stop]?.getD 0 - paragraph.begins[start]?.getD 0 - spaces

/-- What the words between two places cost as a line. -/
def Paragraph.cost (paragraph : Paragraph) (start stop : Nat) : Nat :=
  let width := paragraph.width
  let columns := paragraph.columns start stop
  if width < columns then 1000 + 2500 * (columns - width)
  else if stop < paragraph.words.size then 1000 + (width - columns) * (width - columns)
  else if start + 1 = stop ∧ 4 * columns < width then 1000 + 25
  else 1000

/-- A way to put the first words into lines: what it costs, and where the last line begins. -/
structure Ending where
  cost : Nat
  start : Nat
deriving DecidableEq, Inhabited

/-- The cheapest way to put words into lines whose last line begins before some place, or the way
found already. The best ways for fewer words are given.

A line that is too wide costs more the earlier it begins, so nothing cheaper comes before one that
alone costs more than the way found. -/
def Paragraph.cheapest (paragraph : Paragraph) (best : Array Ending) (stop : Nat) :
    Nat → Ending → Ending
  | 0, found => found
  | start + 1, found =>
    let line := paragraph.cost start stop
    if paragraph.width < paragraph.columns start stop ∧ found.cost < line then found
    else
      let cost := (best[start]?.getD default).cost + line
      paragraph.cheapest best stop start (if cost ≤ found.cost then ⟨cost, start⟩ else found)

/-- Adds the cheapest way for one word more. -/
def Paragraph.addBest (paragraph : Paragraph) (best : Array Ending) : Array Ending :=
  let start := best.size - 1
  let found := ⟨(best[start]?.getD default).cost + paragraph.cost start best.size, start⟩
  best.push (paragraph.cheapest best best.size start found)

/-- The cheapest ways to put the first words into lines: one for each number of words. -/
def Paragraph.best (paragraph : Paragraph) : Array Ending :=
  paragraph.words.foldl (fun best _ => paragraph.addBest best) #[⟨0, 0⟩]

/-- The lines of the first words, before some lines that have been made already. Each line has at
least one word, so there are not more lines than words. -/
def Paragraph.linesFrom (paragraph : Paragraph) (best : Array Ending) :
    Nat → Nat → List (List Word) → List (List Word)
  | 0, _, lines => lines
  | _ + 1, 0, lines => lines
  | fuel + 1, stop, lines =>
    let start := (best[stop]?.getD default).start
    paragraph.linesFrom best fuel start ((paragraph.words.extract start stop).toList :: lines)

/-- Puts words into lines at the least cost. -/
def Paragraph.lines (paragraph : Paragraph) : List (List Word) :=
  paragraph.linesFrom paragraph.best paragraph.words.size paragraph.words.size []

/-! ## Texts -/

/-- Wraps a single line. -/
def wrapLine (width : Nat) (line : List Char) : List (List Char) :=
  match (wordsOf line).flatMap (Word.cut width) with
  | [] => [[]]
  | words => (Paragraph.ofWords width words).lines.map lineText

/-- Puts a character before the parts of a text. -/
def consPart (c : Char) (parts : List (List Char)) : List (List Char) :=
  match parts with
  | part :: parts => if c = '\n' then [] :: part :: parts else (c :: part) :: parts
  | [] => [[c]]

/-- The parts of a text between line feeds. -/
def splitAtBreaks (text : List Char) : List (List Char) :=
  text.foldr consPart [[]]

/-- Wraps a text to a number of columns, of which there is at least one. -/
def wrap (width : Nat) (text : List Char) : List (List Char) :=
  (splitAtBreaks text).flatMap (wrapLine (max 1 width))

end StarlarkSyntax.Text
