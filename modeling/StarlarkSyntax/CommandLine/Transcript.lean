import StarlarkSyntax.CommandLine.Invocation
import StarlarkSyntax.CommandLine.Surroundings
import StarlarkSyntax.Diagnostic.OfErrors
import StarlarkSyntax.Diagnostic.Pending
import StarlarkSyntax.Report.Basic
import StarlarkSyntax.Text.Quoted
import StarlarkSyntax.Tree.Outline
/-!
# Transcripts

What is written about an input: its tokens and its tree to standard output, if they are to be shown,
and its errors to standard error.
-/

set_option autoImplicit false

namespace StarlarkSyntax.CommandLine

/-- What has been written, and whether nothing was wrong. -/
structure Transcript where
  /-- What went to standard output. -/
  out : List Char := []
  /-- What went to standard error. -/
  err : List Char := []
  /-- Was nothing wrong? -/
  clean : Bool := true
deriving DecidableEq, Inhabited

namespace Transcript

/-- One transcript after the other. -/
def append (first second : Transcript) : Transcript :=
  ⟨first.out ++ second.out, first.err ++ second.err, first.clean && second.clean⟩

instance : Append Transcript := ⟨append⟩

/-- The transcript of a failure to read. -/
def ofFailure (path : String) (failure : ReadFailure) : Transcript :=
  let what := if isStandardInput path then "standard input" else "'" ++ path ++ "'"
  let message := "Error: cannot read " ++ what ++ "\n\nCaused by:\n    " ++ failure.reason ++ "\n"
  { err := message.toList
    clean := false }

end Transcript

/-- How errors are reported. -/
def Options.format (options : Options) (terminal : Terminal) : Report.Format :=
  if options.plain then .plain else .full terminal.palette

/-- A token in one line: where it is, what it is and its text. -/
def listToken (token : Token) : List Char :=
  token.span.display.toList ++ '\t' :: token.kind.label.toList
    ++ '\t' :: (Text.quote token.body ++ ['\n'])

/-- Writes about an input. -/
def examine (options : Options) (terminal : Terminal) (inputs : Inputs) (id : InputId) :
    Transcript :=
  let parse := parse (inputs.text id)
  let (diagnostics, _) := (({} : Pending).extend (parse.diagnostics id)).emit
  { out := (if options.tokens then parse.tokens.flatMap listToken else [])
      ++ (if options.tree then parse.root.outline else [])
    err := Report.reportAll (options.format terminal) inputs diagnostics
    clean := !parse.hasErrors }

end StarlarkSyntax.CommandLine
