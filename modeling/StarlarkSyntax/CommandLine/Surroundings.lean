import StarlarkSyntax.Report.Style
/-!
# Surroundings

What a run finds around it: the files it may read, standard input and the terminal. A run is a
function of its command line and of these.
-/

set_option autoImplicit false

namespace StarlarkSyntax.CommandLine

/-- Why something cannot be read. -/
inductive ReadFailure where
  | noSuchFile
  | notADirectory
  | isDirectory
  /-- The bytes are no text in UTF-8. -/
  | notText
  | other (reason : String)
deriving DecidableEq, Inhabited

/-- What people are told about it. -/
def ReadFailure.reason : ReadFailure → String
  | noSuchFile => "No such file or directory (os error 2)"
  | notADirectory => "Not a directory (os error 20)"
  | isDirectory => "Is a directory (os error 21)"
  | notText => "stream did not contain valid UTF-8"
  | other reason => reason

/-- What matters about a terminal. -/
structure Terminal where
  /-- Can it show colours? -/
  coloured : Bool
  /-- Is it asked for lines by a prompt? -/
  prompted : Bool
deriving DecidableEq, Inhabited

/-- The types of the terminals on which nothing that was written can be changed. The letters may be
of either case. -/
def unchangingTypes : List String :=
  ["dumb", "cons25", "emacs"]

/-- The terminal of some type, for a run that is not interactive. Only `dumb` ones show no colours.
Where what was written cannot be changed, the prompts are among the output. -/
def Terminal.ofType (name : String) : Terminal :=
  ⟨name != "dumb", unchangingTypes.contains name.toLower⟩

/-- The palette for what a terminal can show. -/
def Terminal.palette (terminal : Terminal) : Report.Palette :=
  if terminal.coloured then .ansi else .none

/-- What a run finds around it. -/
structure Surroundings where
  /-- The bytes of the file at a path. -/
  file : String → Except ReadFailure ByteArray
  /-- The bytes of standard input. -/
  input : ByteArray
  terminal : Terminal

/-- The text that some bytes stand for in UTF-8. -/
def decode (bytes : ByteArray) : Except ReadFailure (List Char) :=
  match String.fromUTF8? bytes with
  | some text => .ok text.toList
  | none => .error .notText

/-- Does the path stand for standard input? A lone hyphen does, also with slashes after it and with
the dots between them that lead nowhere else. -/
def isStandardInput (path : String) : Bool :=
  match path.toList.splitOn '/' with
  | first :: more => first == ['-'] && more.all fun step => step == [] || step == ['.']
  | [] => false

end StarlarkSyntax.CommandLine
