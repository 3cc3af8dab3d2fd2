import StarlarkSyntax.Report.CodeWindow
import StarlarkSyntax.Report.LineArt
import StarlarkSyntax.Report.Style
import StarlarkSyntax.Text.Wrapped
/-!
# Drawn code windows

How a code window looks: a rule with the name of the input above it, a gutter with the line numbers
beside it, and the marks with their notes between the rows. A note stands right of its mark if there
is room, or else left of it, or else on lines of its own.
-/

set_option autoImplicit false

namespace StarlarkSyntax.Report

open StarlarkSyntax.Unicode

/-- How wide a report may be and what it is drawn with. -/
structure Canvas where
  art : LineArt
  width : Nat
deriving DecidableEq, Inhabited

/-- The width where nothing else is known. -/
def Canvas.defaultWidth : Nat := 80

/-- The least width that a report is wrapped to. -/
def Canvas.minWidth : Nat := 40

/-- The least room for a note beside its mark. -/
def Canvas.minMargin : Nat := 25

/-- Some copies of a character. -/
def fill (c : Char) (count : Nat) : List Char :=
  List.replicate count c

/-- The columns of the gutter: enough for the biggest number and for the sign that a line goes
on. -/
def gutterWidth (canvas : Canvas) (window : CodeWindow) : Nat :=
  max (toString window.lastNumber).length (columns canvas.art.more)

/-- The columns that are left for the code. -/
def codeWidth (canvas : Canvas) (window : CodeWindow) : Nat :=
  max 1 (canvas.width - (gutterWidth canvas window + 2))

/-- The gutter, with something at its right end. -/
def gutter (canvas : Canvas) (window : CodeWindow) (content : List Char) : Piece :=
  styled .frame (fill ' ' (gutterWidth canvas window - content.length) ++ content
    ++ [canvas.art.vertical, ' '])

/-- The rule above a window, with a name at its right end. -/
def rule (canvas : Canvas) (window : CodeWindow) (name : List Char) : List Piece :=
  [styled .frame (fill canvas.art.horizontal (gutterWidth canvas window) ++ [canvas.art.tee]
      ++ fill canvas.art.horizontal (codeWidth canvas window - (columns name + 1))),
    plain (' ' :: (name ++ ['\n']))]

/-- The mark itself, at its place. -/
def underline (canvas : Canvas) (window : CodeWindow) (mark : Mark) : List Piece :=
  [gutter canvas window [], plain (fill ' ' mark.left),
    styled .highlight (fill canvas.art.up mark.length)]

/-- A note on lines of its own. -/
def noteBelow (canvas : Canvas) (window : CodeWindow) (note : List Char) : List Piece :=
  (Text.wrap (codeWidth canvas window) note).flatMap fun line =>
    [gutter canvas window [], styled .note (line ++ ['\n'])]

/-- A note right of its mark, whose lines begin at some column. -/
def noteRight (canvas : Canvas) (window : CodeWindow) (indent : Nat) (note : List Char) :
    List Piece :=
  match Text.wrap (codeWidth canvas window - indent) note with
  | [] => []
  | first :: more =>
    styled .note (' ' :: (first ++ ['\n'])) ::
      more.flatMap fun line =>
        [gutter canvas window [], plain (fill ' ' indent), styled .note (line ++ ['\n'])]

/-- A mark with its note left of it. -/
def noteLeft (canvas : Canvas) (window : CodeWindow) (mark : Mark) (note : List Char) :
    List Piece :=
  [gutter canvas window [], plain (fill ' ' (mark.left - columns note - 1)),
    styled .note (note ++ [' ']), styled .highlight (fill canvas.art.up mark.length), plain ['\n']]

/-- A mark with its note, if it has one. -/
def drawMark (canvas : Canvas) (window : CodeWindow) (mark : Mark) : List Piece :=
  let alone := underline canvas window mark ++ [plain ['\n']]
  match mark.note? with
  | none => alone
  | some note =>
    let note := note.toList
    let right := codeWidth canvas window - (mark.left + mark.length)
    if Canvas.minMargin ≤ right then
      underline canvas window mark ++ noteRight canvas window (mark.left + mark.length + 1) note
    else if Canvas.minMargin ≤ mark.left ∧ columns note < mark.left then
      noteLeft canvas window mark note
    else
      alone ++ noteBelow canvas window note

/-- A row of code and the marks under it. -/
def drawRow (canvas : Canvas) (window : CodeWindow) (row : Row) : List Piece :=
  let label := if row.start = 0 then (toString (row.line + 1)).toList else canvas.art.more
  [gutter canvas window label, plain (row.text ++ ['\n'])]
    ++ (window.marks row).flatMap (drawMark canvas window)

/-- A window with a name above it and an empty line below it. -/
def drawWindow (canvas : Canvas) (window : CodeWindow) (name : List Char) : List Piece :=
  rule canvas window name
    ++ (window.numberedLines.flatMap fun (line, text) =>
      (CodeWindow.rowsOfLine (codeWidth canvas window) line text).flatMap (drawRow canvas window))
    ++ [plain ['\n']]

end StarlarkSyntax.Report
