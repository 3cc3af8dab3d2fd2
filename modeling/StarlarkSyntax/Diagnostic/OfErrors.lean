import StarlarkSyntax.Diagnostic.Basic
import StarlarkSyntax.Parse
/-!
# Errors as diagnostics

Each error that is found in a text becomes a diagnostic that highlights where it is.
-/

set_option autoImplicit false

namespace StarlarkSyntax

/-- The diagnostic for an error in the tokens of a text. -/
def LexicalError.toDiagnostic (error : LexicalError) : Diagnostic :=
  { text := error.message
    location? := some error.caret
    highlights := [{ span := .point error.caret }] }

/-- The diagnostic for something in an input that does not fit the grammar. -/
def SyntaxError.toDiagnostic (id : InputId) (error : SyntaxError) : Diagnostic :=
  { text := error.message
    input? := some id
    location? := some error.span.start
    highlights := [{ span := error.span }] }

/-- The diagnostics for everything in an input that does not fit the grammar. -/
def Parse.diagnostics (parse : Parse) (id : InputId) : List Diagnostic :=
  parse.errors.map (SyntaxError.toDiagnostic id)

end StarlarkSyntax
