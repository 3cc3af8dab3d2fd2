import StarlarkSyntax.Diagnostic.Basic
/-!
# Inputs

All the inputs of a run are kept, so that a diagnostic can show the code that it is about. An input
is known by its number and is shown to people under a name that says where it came from.
-/

set_option autoImplicit false

namespace StarlarkSyntax

/-- Where an input came from. -/
inductive Origin where
  /-- Typed in. -/
  | typed
  /-- Given on the command line. -/
  | given
  /-- Read from a file. -/
  | file (path : String)
deriving DecidableEq, Inhabited

/-- An input. -/
structure Input where
  origin : Origin
  text : List Char
deriving DecidableEq, Inhabited

/-- The inputs of a run; the number of an input is its place. -/
structure Inputs where
  entries : Array Input := #[]
deriving Inhabited

namespace Inputs

/-- Keeps one more input. -/
def add (inputs : Inputs) (origin : Origin) (text : List Char) : InputId × Inputs :=
  (⟨inputs.entries.size⟩, ⟨inputs.entries.push ⟨origin, text⟩⟩)

/-- The text of an input; of an input that is not there, nothing. -/
def text (inputs : Inputs) (id : InputId) : List Char :=
  (inputs.entries[id.index]?.map Input.text).getD []

/-- The name that an input is shown under. -/
def name (inputs : Inputs) (id : InputId) : String :=
  match inputs.entries[id.index]?.map Input.origin with
  | some (.file path) => path
  | some .typed => "<repl " ++ toString id.index ++ ">"
  | some .given => if id.index = 0 then "<eval>" else "<eval-" ++ toString id.index ++ ">"
  | none => ""

theorem text_add (inputs : Inputs) (origin : Origin) (text : List Char) :
    (inputs.add origin text).2.text (inputs.add origin text).1 = text := by
  simp [add, Inputs.text]

end Inputs
end StarlarkSyntax
