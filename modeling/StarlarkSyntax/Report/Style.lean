import StarlarkSyntax.Diagnostic.Basic
/-!
# Styles and palettes

A report is made of pieces of text, some of them with a style that says what they are for. A palette
says how the styles look: without colour, nothing is added to the text; on a terminal, the sequences
of ANSI switch to the look of a style and back.
-/

set_option autoImplicit false

namespace StarlarkSyntax.Report

/-- What a piece of text is for. -/
inductive Style where
  /-- Lines and numbers around the code. -/
  | frame
  /-- The marks under the code. -/
  | highlight
  /-- What is said about a mark. -/
  | note
  /-- The level of a message. -/
  | level (level : Level)
deriving DecidableEq, Inhabited

/-- A piece of a report. -/
structure Piece where
  style? : Option Style
  text : List Char
deriving DecidableEq, Inhabited

/-- A piece without a style. -/
def plain (text : List Char) : Piece := ⟨none, text⟩

/-- A piece with a style. -/
def styled (style : Style) (text : List Char) : Piece := ⟨some style, text⟩

/-- How the styles look. -/
structure Palette where
  /-- What switches to the look of a style. -/
  switchTo : Style → List Char
  /-- What switches back. -/
  switchBack : List Char

/-- No colours. -/
def Palette.none : Palette :=
  ⟨fun _ => [], []⟩

/-- A sequence of ANSI with the given code. -/
def ansiCode (code : String) : List Char :=
  '\x1b' :: '[' :: (code.toList ++ ['m'])

/-- The codes of ANSI for the look of a style. -/
def ansiCodes : Style → List String
  | .frame => ["2"]
  | .highlight => ["1", "33"]
  | .note => ["34"]
  | .level .error => ["1", "31"]
  | .level .warning => ["1", "33"]
  | .level .help => ["1", "32"]
  | .level .info => ["1", "36"]

/-- The colours of a terminal. Every switch begins from the plain look. -/
def Palette.ansi : Palette :=
  ⟨fun style => ("0" :: ansiCodes style).flatMap ansiCode, ansiCode "0"⟩

/-- A piece as it is written out. -/
def Palette.paint (palette : Palette) (piece : Piece) : List Char :=
  match piece.style? with
  | some style => palette.switchTo style ++ piece.text ++ palette.switchBack
  | Option.none => piece.text

/-- Pieces as they are written out, one after the other. -/
def Palette.paintAll (palette : Palette) (pieces : List Piece) : List Char :=
  pieces.flatMap palette.paint

@[simp] theorem Palette.paintAll_append (palette : Palette) (s t : List Piece) :
    palette.paintAll (s ++ t) = palette.paintAll s ++ palette.paintAll t := by
  simp [paintAll]

end StarlarkSyntax.Report
