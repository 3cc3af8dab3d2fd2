import StarlarkSyntax.CommandLine.Session
/-!
# Runs

What a command line does in its surroundings: what it writes, and the code it exits with.
-/

set_option autoImplicit false

namespace StarlarkSyntax.CommandLine

/-- Reads what a path stands for, and leaves what can still be read from standard input. -/
def readPath (surroundings : Surroundings) (path : String) :
    Except ReadFailure (List Char) × Surroundings :=
  if isStandardInput path then
    (decode surroundings.input, { surroundings with input := .empty })
  else ((surroundings.file path).bind decode, surroundings)

/-- Looks for errors in files, one after the other, until one cannot be read. -/
def checkFiles (options : Options) (inputs : Inputs) (surroundings : Surroundings) :
    List String → Transcript
  | [] => {}
  | path :: paths =>
    match readPath surroundings path with
    | (.error failure, _) => .ofFailure path failure
    | (.ok text, later) =>
      let (id, inputs) := inputs.add (.file path) text
      examine options surroundings.terminal inputs id ++ checkFiles options inputs later paths

/-- Shows the tree of some code. -/
def evalCode (options : Options) (terminal : Terminal) (code : String) : Transcript :=
  let (id, inputs) := ({} : Inputs).add .given code.toList
  examine { options with tree := true } terminal inputs id

/-- What an invocation writes. Nothing is ever wrong with a whole session. -/
def Invocation.transcript (invocation : Invocation) (surroundings : Surroundings) : Transcript :=
  match invocation.action with
  | .check paths => checkFiles invocation.options {} surroundings paths
  | .eval code => evalCode invocation.options surroundings.terminal code
  | .repl =>
    let written := ({} : Session).takeAll invocation.options surroundings.terminal
      (lineBytes surroundings.input)
    { written with clean := true }

/-- What a run leaves behind. -/
structure Result where
  /-- Zero if nothing was wrong. -/
  code : Nat
  out : List Char
  err : List Char
deriving DecidableEq, Inhabited

/-- The result of a run that has written something. -/
def Transcript.result (transcript : Transcript) : Result :=
  ⟨if transcript.clean then 0 else 1, transcript.out, transcript.err⟩

/-- Runs a command line. -/
def run (words : List String) (surroundings : Surroundings) : Result :=
  match Invocation.ofWords? words with
  | some invocation => (invocation.transcript surroundings).result
  | none => ⟨2, [], usage⟩

end StarlarkSyntax.CommandLine
