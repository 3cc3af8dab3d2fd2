import StarlarkSyntax.CommandLine.Entry
import StarlarkSyntax.CommandLine.Transcript
import StarlarkSyntax.CommandLine.TypedLine
import StarlarkSyntax.Text.Lines
/-!
# Sessions

A session shows the tree of each entry that is typed in, line by line. What backspaces take back is
gone before a line is looked at. Blank entries are passed over. What is unfinished when the lines
end is never looked at.
-/

set_option autoImplicit false

namespace StarlarkSyntax.CommandLine

/-- A session between two lines. -/
structure Session where
  inputs : Inputs := {}
  /-- The entry that is not finished yet. -/
  entry? : Option Entry := none
deriving Inhabited

namespace Session

/-- What asks for the next line. -/
def prompt (session : Session) : List Char :=
  if session.entry?.isNone then ">>> ".toList else "... ".toList

/-- What is written when a line cannot be read. -/
def unreadable (failure : ReadFailure) : Transcript :=
  { out := (failure.reason ++ "\n  (press control-d to exit)\n").toList }

/-- Looks at a finished entry. -/
def look (session : Session) (options : Options) (terminal : Terminal) (text : List Char) :
    Transcript × Session :=
  let session := { session with entry? := none }
  if Unicode.isBlank text then ({}, session)
  else
    let (id, inputs) := session.inputs.add .typed text
    (examine { options with tree := true } terminal inputs id, { session with inputs })

/-- Takes a line. -/
def take (session : Session) (options : Options) (terminal : Terminal) (line : List Char) :
    Transcript × Session :=
  let progress :=
    match session.entry? with
    | none => Entry.start line
    | some entry => entry.next line
  match progress with
  | .finished text => session.look options terminal text
  | .unfinished entry => ({}, { session with entry? := some entry })

/-- Takes a line as it was typed, with its end. If it is no text, the entry is given up. -/
def takeBytes (session : Session) (options : Options) (terminal : Terminal) (bytes : ByteArray) :
    Transcript × Session :=
  match decode bytes with
  | .ok text => session.take options terminal (edited ((Text.lines text).headD []))
  | .error failure => (unreadable failure, { session with entry? := none })

/-- What is written before a line is read. -/
def ask (session : Session) (terminal : Terminal) : Transcript :=
  { out := if terminal.prompted then session.prompt else [] }

/-- Takes all the lines that there are. The end is only noticed when one more line is asked for. -/
def takeAll (session : Session) (options : Options) (terminal : Terminal) :
    List ByteArray → Transcript
  | [] => session.ask terminal
  | line :: lines =>
    let (written, later) := session.takeBytes options terminal line
    session.ask terminal ++ written ++ later.takeAll options terminal lines

end Session

/-- Cuts bytes into lines, each with the line feed at its end; `line` is what the first of them has
so far, last byte first. -/
def lineBytesWith (line : List UInt8) : List UInt8 → List ByteArray
  | [] => if line.isEmpty then [] else [line.reverse.toByteArray]
  | byte :: bytes =>
    if byte = 10 then (byte :: line).reverse.toByteArray :: lineBytesWith [] bytes
    else lineBytesWith (byte :: line) bytes

/-- Cuts bytes into lines, each with the line feed at its end. -/
def lineBytes (bytes : ByteArray) : List ByteArray :=
  lineBytesWith [] bytes.toList

end StarlarkSyntax.CommandLine
