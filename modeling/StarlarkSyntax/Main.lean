import StarlarkSyntax.CommandLine.Run
/-!
# The command line program

Gathers the surroundings of a run, leaves all else to `CommandLine.run`, and writes what comes of
it. Only a session is done line by line, so that somebody can type into it.
-/

set_option autoImplicit false

namespace StarlarkSyntax.CommandLine

/-- Why a file cannot be read, as the system says it. -/
def ReadFailure.ofError : IO.Error → ReadFailure
  | .noFileOrDirectory .. => noSuchFile
  | .inappropriateType _ 21 _ => isDirectory
  | .inappropriateType .. => notADirectory
  | error => other (toString error)

/-- Reads a file. -/
def readFile (path : String) : IO (Except ReadFailure ByteArray) := do
  try return .ok (← IO.FS.readBinFile path)
  catch error => return .error (.ofError error)

/-- Reads the files that a command line names, so that they can be looked up. -/
def readFiles (paths : List String) : IO (String → Except ReadFailure ByteArray) := do
  let files ← paths.mapM fun path => do return (path, ← readFile path)
  return fun path => (files.lookup path).getD (.error .noSuchFile)

/-- Reads a stream to its end. -/
partial def readAll (stream : IO.FS.Stream) (bytes : ByteArray) : IO ByteArray := do
  let more ← stream.read 65536
  if more.isEmpty then return bytes else readAll stream (bytes ++ more)

/-- Reads a line with the line feed at its end, or nothing if the stream ends. -/
partial def readLine (stream : IO.FS.Stream) (bytes : ByteArray) : IO ByteArray := do
  let more ← stream.read 1
  if more.isEmpty then return bytes
  else if more.toList == [10] then return bytes ++ more
  else readLine stream (bytes ++ more)

/-- Writes to standard output and standard error. -/
def write (out err : List Char) : IO Unit := do
  let output ← IO.getStdout
  output.putStr (String.ofList out)
  output.flush
  (← IO.getStderr).putStr (String.ofList err)

/-- The terminal that the program runs in. Whoever types at it is asked for lines. -/
def currentTerminal (input : IO.FS.Stream) : IO Terminal := do
  let type? ← IO.getEnv "TERM"
  let terminal := Terminal.ofType (type?.getD "")
  let coloured := terminal.coloured && type?.isSome && (← IO.getEnv "NO_COLOR").isNone
  return ⟨coloured, terminal.prompted || (← input.isTty)⟩

/-- Takes lines until there are no more. -/
partial def converse (options : Options) (terminal : Terminal) (input : IO.FS.Stream)
    (session : Session) : IO Unit := do
  let asked := session.ask terminal
  write asked.out asked.err
  let line ← readLine input .empty
  unless line.isEmpty do
    let (written, later) := session.takeBytes options terminal line
    write written.out written.err
    converse options terminal input later

end StarlarkSyntax.CommandLine

open StarlarkSyntax.CommandLine in
/-- Runs the program and returns its exit code. -/
def main (words : List String) : IO UInt32 := do
  let input ← IO.getStdin
  let terminal ← currentTerminal input
  let action? := (Invocation.ofWords? words).map Invocation.action
  let options := ((Invocation.ofWords? words).map Invocation.options).getD {}
  if action? == some .repl then
    converse options terminal input {}
    return 0
  let paths :=
    match action? with
    | some (.check paths) => paths
    | _ => []
  let (standard, named) := paths.partition isStandardInput
  let typed ← if standard.isEmpty then pure .empty else readAll input .empty
  let result := run words { file := ← readFiles named, input := typed, terminal }
  write result.out result.err
  return result.code.toUInt32
