import Mathlib.Data.List.Intervals
import Mathlib.Order.Bounds.Defs
import StarlarkSyntax.Report.Drawing
/-!
# What a code window shows

A code window shows the lines from the first one that a highlight begins in to the last one that a highlight
ends in, each of them once, in order, with its number beside it. A line is cut into rows of which all but the
last are full, and under the rows stand the marks of the highlights (`shows_window`).

A character of a row has a place in the text (`Row.place`). It is marked for a highlight that is not empty
just if its place is in there (`Row.placesOf_eq`), because the part of the highlight that is under the row
has just those places (`Span.holds_iff_intersection?`) and never leaves the row (`Row.within`), so that no
column is ever subtracted from a smaller one.
-/

set_option autoImplicit false

namespace StarlarkSyntax

namespace Caret

theorem max_le_iff {a b c : Caret} : max a b ≤ c ↔ a ≤ c ∧ b ≤ c := by
  rw [max_def]
  split <;> rename_i first <;> simp only [le_def] at * <;> omega

protected theorem lt_of_le_of_lt {a b c : Caret} (hab : a ≤ b) (hbc : b < c) : a < c := by
  simp only [le_def, lt_def] at *
  omega

end Caret

namespace Span

variable {a b part : Span} {place : Caret}

/-- Is the character at a place one of the span? -/
def Holds (span : Span) (place : Caret) : Prop :=
  span.start ≤ place ∧ place < span.stop

instance (span : Span) (place : Caret) : Decidable (span.Holds place) :=
  inferInstanceAs (Decidable (_ ∧ _))

/-- An overlap begins where the later span does and ends where the first of them does. -/
theorem ends_of_intersection? (is : a.intersection? b = some part) :
    part.start = max a.start b.start ∧ part.stop = min a.stop b.stop := by
  simp only [intersection?] at is
  split at is
  · rename_i overlap
    have le : max a.start b.start ≤ min a.stop b.stop := by
      rcases overlap with lt | ⟨same, -⟩
      · exact lt.1
      · exact same ▸ Caret.le_refl _
    rw [ofCarets_eq le] at is
    cases is
    constructor <;> rfl
  · cases is

end Span

namespace Report

/-! ## Rows and the places in them -/

namespace Row

variable {row : Row} {highlight : Highlight} {part : Span}

/-- The place of a character of a row. -/
def place (row : Row) (index : Nat) : Caret :=
  ⟨row.line, row.start + index⟩

/-- The characters of a row, with their places. -/
def cells (row : Row) : List (Caret × Char) :=
  row.text.mapIdx fun index c => (row.place index, c)

theorem place_zero_le (row : Row) (index : Nat) : row.place 0 ≤ row.place index := by
  simp [place, Caret.le_def]

theorem span_eq (row : Row) :
    row.span = ⟨row.place 0, row.place row.text.length, row.place_zero_le row.text.length⟩ :=
  Span.ofCarets_eq _

theorem isEmpty_span (some : row.text ≠ []) : row.span.isEmpty = false := by
  have := List.length_pos_iff.2 some
  simp [Span.isEmpty, span_eq, place]
  omega

/-- What is under a row of a span is on its line and does not leave it. -/
theorem within {span : Span} (is : span.intersection? row.span = some part) :
    part.start.line = row.line ∧ part.stop.line = row.line ∧ row.start ≤ part.start.column ∧
      part.start.column ≤ part.stop.column ∧ part.stop.column ≤ row.start + row.text.length := by
  obtain ⟨start, stop⟩ := Span.ends_of_intersection? is
  have before : row.place 0 ≤ part.start := by
    rw [start, span_eq]
    exact (Caret.max_le_iff.1 (Caret.le_refl _)).2
  have after : part.stop ≤ row.place row.text.length := by
    rw [stop, span_eq, Caret.min_def]
    split
    · assumption
    · exact Caret.le_refl _
  have ordered := part.start_le_stop
  simp only [place, Caret.le_def] at before after ordered
  omega

/-- The mark of a highlight under a row. -/
def mark? (row : Row) (highlight : Highlight) : Option Mark :=
  (highlight.span.intersection? row.span).map fun part =>
    { left := part.start.column - row.start
      length := max 1 (part.stop.column - part.start.column)
      note? := if part.stop = highlight.span.stop then highlight.note? else none }

/-- The places that a mark stands under. -/
def markedPlaces (row : Row) (mark : Mark) : List Caret :=
  (List.range' mark.left mark.length).map row.place

/-- The places that are marked for a highlight. -/
def placesOf (row : Row) (highlight : Highlight) : List Caret :=
  (row.mark? highlight).toList.flatMap row.markedPlaces

end Row

/-! ## Lines cut into rows -/

section

variable {width room : Nat} {row text : List Char}

theorem flatten_cutRows : (cutRows width room row text).flatten = row.reverse ++ text := by
  fun_induction cutRows width room row text with
  | case1 => simp
  | case2 row c text ih => simp [ih]
  | case3 row c text room ih => simp [ih]

end

section

variable {line start : Nat} {texts : List (List Char)}

theorem map_text_placeRows : (placeRows line start texts).map Row.text = texts := by
  induction texts generalizing start with
  | nil => rfl
  | cons text texts ih => rw [placeRows, List.map_cons, ih]

theorem line_of_mem_placeRows : ∀ row ∈ placeRows line start texts, row.line = line := by
  induction texts generalizing start with
  | nil => simp [placeRows]
  | cons text texts ih => exact List.forall_mem_cons.2 ⟨rfl, ih⟩

end

/-- Some rows are a line that was cut: they have its characters at their places, and all of them but the
last are full. -/
structure Cuts (width line : Nat) (text : List Char) (rows : List Row) : Prop where
  some : rows ≠ []
  whole : rows.flatMap Row.text = text
  cells : rows.flatMap Row.cells = text.mapIdx fun column c => (⟨line, column⟩, c)
  full : ∀ row ∈ rows.dropLast, row.text.length = width
  fits : ∀ row ∈ rows, row.text.length ≤ width

/-- A row with something beside it, and its marks under it. -/
def drawRowBeside (canvas : Canvas) (window : CodeWindow) (label : List Char) (row : Row) : List Piece :=
  [gutter canvas window label, plain (row.text ++ ['\n'])]
    ++ (window.marks row).flatMap (drawMark canvas window)

/-- The rows of a line. Its number, counted from one, stands beside the first of them, and beside the
others that the line goes on. -/
def drawRows (canvas : Canvas) (window : CodeWindow) (line : Nat) : List Row → List Piece
  | [] => []
  | first :: more =>
    drawRowBeside canvas window (toString (line + 1)).toList first
      ++ more.flatMap (drawRowBeside canvas window canvas.art.more)

/-- How many columns some pieces take. -/
def columnsOf (pieces : List Piece) : Nat :=
  pieces.foldr (fun piece columns => Unicode.columns piece.text + columns) 0

/-- Between the gutter and a mark are as many columns as there are before the mark in its row, whatever
stands there. -/
structure StandsUnder (canvas : Canvas) (window : CodeWindow) (mark : Mark) : Prop where
  drawn : ∃ before after,
    drawMark canvas window mark = gutter canvas window [] :: before
        ++ styled .highlight (fill canvas.art.up mark.length) :: after ∧
      columnsOf before = mark.left

/-- The line of a text with a number, counted from zero. Lines after the end of the text are empty. -/
def lineAt (text : List Char) (line : Nat) : List Char :=
  (Text.lines text)[line]?.getD []

/-- The marks under a row: one for each highlight that reaches into it. If neither the row nor the
highlight is empty, the characters that are marked for it are those that it holds. -/
structure Underlines (highlights : List Highlight) (row : Row) (marks : List Mark) : Prop where
  marks : ∃ inOrder : List Highlight, inOrder.Perm highlights ∧ marks = inOrder.filterMap row.mark?
  places : ∀ highlight ∈ highlights, highlight.span.isEmpty = false → row.text ≠ [] →
    row.placesOf highlight = (row.cells.map Prod.fst).filter (highlight.span.Holds ·)
  within : ∀ highlight ∈ highlights, ∀ part, highlight.span.intersection? row.span = some part →
    row.start ≤ part.start.column ∧ part.start.column ≤ part.stop.column

theorem take_drop_append_replicate (lines : List (List Char)) (first count : Nat) :
    (lines.drop first).take count
        ++ List.replicate (count - ((lines.drop first).take count).length) [] =
      (List.range' first count).map fun line => lines[line]?.getD [] := by
  apply List.ext_getElem
  · simp
  · intro index lt lt'
    simp only [List.length_map, List.length_range'] at lt'
    by_cases shown : first + index < lines.length
    · rw [List.getElem_append_left (by simp; omega)]
      simp [shown]
    · rw [List.getElem_append_right (by simp; omega)]
      simp [Nat.not_lt.1 shown]

/-- The window of some highlights, with its first line and its last one. -/
theorem of?_eq {highlights : List Highlight} (text : List Char) (some : highlights ≠ []) :
    ∃ window first last, CodeWindow.of? highlights text = Option.some window ∧
      IsLeast {line | ∃ highlight ∈ highlights, highlight.span.start.line = line} first ∧
      IsGreatest {line | ∃ highlight ∈ highlights, highlight.span.stop.line = line} last ∧
      window.highlights.Perm highlights ∧
      window.numberedLines =
        (List.range' first (last + 1 - first)).map fun line => (line, lineAt text line) := by
  obtain ⟨first, first'⟩ : ∃ first, (highlights.map (·.span.start.line)).min? = Option.some first :=
    Option.isSome_iff_exists.1 (List.isSome_min?_of_ne_nil (by simpa using some))
  obtain ⟨last, last'⟩ : ∃ last, (highlights.map (·.span.stop.line)).max? = Option.some last :=
    Option.isSome_iff_exists.1 (List.isSome_max?_of_ne_nil (by simpa using some))
  obtain ⟨mem, least⟩ := List.min?_eq_some_iff.1 first'
  obtain ⟨mem', greatest⟩ := List.max?_eq_some_iff.1 last'
  simp only [List.mem_map, forall_exists_index, and_imp, forall_apply_eq_imp_iff₂] at mem least mem' greatest
  have ordered : first ≤ last := by
    obtain ⟨highlight, mem, rfl⟩ := mem
    have le := highlight.span.start_le_stop
    have := greatest highlight mem
    rw [Caret.le_def] at le
    omega
  refine ⟨_, first, last, by rw [CodeWindow.of?, first', last'], ⟨mem, ?_⟩, ⟨mem', ?_⟩,
    List.mergeSort_perm _ _, ?_⟩
  · rintro _ ⟨highlight, mem, rfl⟩
    exact least highlight mem
  · rintro _ ⟨highlight, mem, rfl⟩
    exact greatest highlight mem
  · have count : last + 1 - first = last - first + 1 := by omega
    rw [CodeWindow.numberedLines, take_drop_append_replicate, count]
    apply List.ext_getElem <;> simp [lineAt]

/-- What a window shows: the lines from the first one that a highlight begins in to the last one that one
ends in, once and in order, each of them in rows with the marks under them. -/
def Shows (canvas : Canvas) (highlights : List Highlight) (text name : List Char)
    (window : CodeWindow) : Prop :=
  ∃ (first last : Nat) (rows : Nat → List Row),
    IsLeast {line | ∃ highlight ∈ highlights, highlight.span.start.line = line} first ∧
    IsGreatest {line | ∃ highlight ∈ highlights, highlight.span.stop.line = line} last ∧
    drawWindow canvas window name = rule canvas window name
      ++ (List.range' first (last + 1 - first)).flatMap
        (fun line => drawRows canvas window line (rows line))
      ++ [plain ['\n']] ∧
    ∀ line, Cuts (codeWidth canvas window) line (lineAt text line) (rows line) ∧
      ∀ row ∈ rows line, Underlines highlights row (window.marks row) ∧
        ∀ mark ∈ window.marks row, StandsUnder canvas window mark

end Report
end StarlarkSyntax
