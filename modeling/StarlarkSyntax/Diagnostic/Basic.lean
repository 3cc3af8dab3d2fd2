import StarlarkSyntax.Source.Span
/-!
# Diagnostics

A diagnostic is a message about some problem, meant for a person to read. It may say which input the
problem is in and where it begins, and it may highlight stretches of the input, with or without a
note on each.
-/

set_option autoImplicit false

namespace StarlarkSyntax

/-- How severe a problem is. -/
inductive Level where
  | error
  | warning
  | help
  | info
deriving DecidableEq, Inhabited

/-- The name of a level. -/
def Level.name : Level → String
  | error => "error"
  | warning => "warning"
  | help => "help"
  | info => "info"

/-- The number of an input, in the order in which the inputs came. -/
structure InputId where
  index : Nat
deriving DecidableEq, Inhabited

/-- A stretch of the input that is shown with the message. -/
structure Highlight where
  span : Span
  /-- What is said about it, which is never nothing. -/
  note? : Option String := none
deriving DecidableEq, Inhabited

/-- A highlight with a note; an empty note is none. -/
def Highlight.ofNote (span : Span) (note : String) : Highlight :=
  ⟨span, if note.isEmpty then none else some note⟩

/-- A message about some problem. -/
structure Diagnostic where
  text : String
  level : Level := .error
  /-- The input that the problem is in. -/
  input? : Option InputId := none
  /-- Where the problem begins. -/
  location? : Option Caret := none
  highlights : List Highlight := []
deriving DecidableEq, Inhabited

namespace Diagnostic

/-- Adds a highlight after the others. -/
def highlight (diagnostic : Diagnostic) (span : Span) (note : String) : Diagnostic :=
  { diagnostic with highlights := diagnostic.highlights ++ [.ofNote span note] }

/-- The diagnostic in one line, without the input that it is about. -/
def display (diagnostic : Diagnostic) : String :=
  match diagnostic.location? with
  | some location => diagnostic.level.name ++ " " ++ location.display ++ ": " ++ diagnostic.text
  | none => diagnostic.level.name ++ ": " ++ diagnostic.text

end Diagnostic
end StarlarkSyntax
