import StarlarkSyntax.Diagnostic.Inputs
import StarlarkSyntax.Report.Drawing
/-!
# Reports

A diagnostic is reported in one of two ways. The plain way is one line for the message and one for
each note, which other programs can read. The illustrated way wraps the message to the width of the
terminal and shows the code that it is about.
-/

set_option autoImplicit false

namespace StarlarkSyntax.Report

/-- A diagnostic in lines that other programs can read. -/
def plainReport (inputs : Inputs) (diagnostic : Diagnostic) : List Char :=
  let place :=
    match diagnostic.input?.map inputs.name, diagnostic.location? with
    | none, none => ": "
    | none, some location => " " ++ location.display ++ ": "
    | some name, none => ": " ++ name ++ " - "
    | some name, some location => ": " ++ name ++ ":" ++ location.display ++ " - "
  let message := diagnostic.level.name ++ place ++ diagnostic.text ++ "\n"
  let notes := diagnostic.highlights.filterMap (·.note?)
  (notes.foldl (fun report note => report ++ "  note: " ++ note ++ "\n") message).toList

/-- The message of a diagnostic, with its level before it and its lines below one another. -/
def message (canvas : Canvas) (diagnostic : Diagnostic) : List Piece :=
  let label := diagnostic.level.name.toList ++ [':', ' ']
  let indent := label.length
  match Text.wrap (canvas.width - indent) diagnostic.text.toList with
  | [] => [styled (.level diagnostic.level) label, plain ['\n']]
  | first :: more =>
    [styled (.level diagnostic.level) label, plain (first ++ ['\n'])]
      ++ more.map fun line => plain (fill ' ' indent ++ line ++ ['\n'])

/-- The code that a diagnostic is about, or at least its place. -/
def illustration (canvas : Canvas) (inputs : Inputs) (diagnostic : Diagnostic) : List Piece :=
  match diagnostic.input? with
  | none => []
  | some id =>
    let name := inputs.name id
    match CodeWindow.of? diagnostic.highlights (inputs.text id), diagnostic.location? with
    | some window, _ => drawWindow canvas window name.toList
    | none, some location => [plain ("  at " ++ name ++ ":" ++ location.display ++ "\n").toList]
    | none, none => [plain ("  in " ++ name ++ "\n").toList]

/-- The ways to report diagnostics. -/
inductive Format where
  | plain
  | illustrated (canvas : Canvas) (palette : Palette)

/-- An illustrated format in characters that every terminal has. -/
def Format.ascii (width : Nat) (palette : Palette) : Format :=
  .illustrated ⟨.ascii, max Canvas.minWidth width⟩ palette

/-- The illustrated format with everything that a terminal can show. -/
def Format.full (palette : Palette) : Format :=
  .illustrated ⟨.boxes, Canvas.defaultWidth⟩ palette

/-- A diagnostic as it is reported. -/
def report (format : Format) (inputs : Inputs) (diagnostic : Diagnostic) : List Char :=
  match format with
  | .plain => plainReport inputs diagnostic
  | .illustrated canvas palette =>
    palette.paintAll (message canvas diagnostic ++ illustration canvas inputs diagnostic)

/-- Several diagnostics as they are reported, one after the other. -/
def reportAll (format : Format) (inputs : Inputs) (diagnostics : List Diagnostic) : List Char :=
  diagnostics.flatMap (report format inputs)

end StarlarkSyntax.Report
