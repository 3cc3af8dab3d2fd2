import StarlarkSyntax.Diagnostic.Basic
import StarlarkSyntax.Text.Lines
/-!
# Code windows

A code window shows the lines of an input that some highlights are about. It shows each line from
the first one with a highlight to the last one, cut into rows where it is too long, and under each
row the marks of the highlights that reach into it. A note is shown where its highlight ends.

This module says what is in a window (`rows`, `marks`) and leaves out how it is drawn.
-/

set_option autoImplicit false

namespace StarlarkSyntax.Report

/-- Some lines of an input, and the highlights in them. -/
structure CodeWindow where
  /-- In the order in which they begin. -/
  highlights : List Highlight
  /-- The number of the first line, counted from zero. -/
  firstLine : Nat
  /-- The lines. -/
  lines : List (List Char)
deriving DecidableEq, Inhabited

/-- A part of a line that fits into the window. -/
structure Row where
  line : Nat
  /-- The column of the line where the row begins. -/
  start : Nat
  text : List Char
deriving DecidableEq, Inhabited

/-- The part of a highlight under a row. -/
structure Mark where
  /-- How far from the beginning of the row. -/
  left : Nat
  /-- How many characters are marked, of which there is at least one. -/
  length : Nat
  /-- What is said about the highlight, if it ends here. -/
  note? : Option String
deriving DecidableEq, Inhabited

/-- Cuts a line into rows of at most so many characters; `room` is what is left in the current one
and `row` what it has so far, last character first. -/
def cutRows (width room : Nat) (row : List Char) : List Char → List (List Char)
  | [] => [row.reverse]
  | c :: text =>
    match room with
    | 0 => row.reverse :: cutRows width (width - 1) [c] text
    | room + 1 => cutRows width room (c :: row) text

/-- The rows of a line, the first of which begins at some column. -/
def placeRows (line start : Nat) : List (List Char) → List Row
  | [] => []
  | text :: rows => ⟨line, start, text⟩ :: placeRows line (start + text.length) rows

/-- Where a row stands in the input. -/
def Row.span (row : Row) : Span :=
  .ofCarets ⟨row.line, row.start⟩ ⟨row.line, row.start + row.text.length⟩

namespace CodeWindow

/-- The window that shows some highlights of a text, if there are any. Lines after the end of the
text are empty. -/
def of? (highlights : List Highlight) (text : List Char) : Option CodeWindow :=
  match (highlights.map (·.span.start.line)).min?, (highlights.map (·.span.stop.line)).max? with
  | some firstLine, some lastLine =>
    let count := lastLine - firstLine + 1
    let lines := ((Text.lines text).drop firstLine).take count
    some {
      highlights := highlights.mergeSort fun a b => decide (a.span.start ≤ b.span.start)
      firstLine
      lines := lines ++ List.replicate (count - lines.length) [] }
  | _, _ => none

/-- The rows of one line. -/
def rowsOfLine (width line : Nat) (text : List Char) : List Row :=
  placeRows line 0 (cutRows (max 1 width) (max 1 width) [] text)

/-- The marks under a row. -/
def marks (window : CodeWindow) (row : Row) : List Mark :=
  window.highlights.filterMap fun highlight =>
    (highlight.span.intersection? row.span).map fun part =>
      { left := part.start.column - row.start
        length := max 1 (part.stop.column - part.start.column)
        note? := if part.stop = highlight.span.stop then highlight.note? else none }

/-- The lines of the window with their numbers. -/
def numberedLines (window : CodeWindow) : List (Nat × List Char) :=
  window.lines.mapIdx fun index text => (window.firstLine + index, text)

/-- The biggest line number that is shown, counted from one. -/
def lastNumber (window : CodeWindow) : Nat :=
  window.firstLine + window.lines.length

end CodeWindow
end StarlarkSyntax.Report
