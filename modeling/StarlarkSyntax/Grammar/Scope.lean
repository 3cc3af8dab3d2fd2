/-!
# Scopes

What a statement may mean depends a little on where it stands: in a function, in a suite on the line
of its colon, right after a semicolon. That is a `Scope`, and the scopes that enclose one another
are a stack that always holds at least the scope of the whole file.
-/

set_option autoImplicit false

namespace StarlarkSyntax

/-- Where a statement stands. -/
structure Scope where
  /-- In the body of a function. -/
  inFunction : Bool := false
  /-- In a suite on the line of its colon. -/
  inSuite : Bool := false
  /-- On the same line as a statement that ended with a semicolon. -/
  afterSemicolon : Bool := false
deriving DecidableEq, Inhabited

namespace Scope

/-- The same scope, in a suite on the line of its colon. -/
def withSuite (scope : Scope) : Scope :=
  { scope with inSuite := true }

/-- The same scope, in the body of a function. -/
def withFunction (scope : Scope) : Scope :=
  { scope with inFunction := true }

end Scope

/-- The scopes that enclose the current one, and the current one. -/
structure Scopes where
  current : Scope := {}
  /-- The enclosing scopes, innermost first. -/
  outer : List Scope := []
deriving DecidableEq, Inhabited

namespace Scopes

/-- How many scopes there are. -/
def height (scopes : Scopes) : Nat :=
  scopes.outer.length + 1

/-- Enters a scope. -/
def push (scope : Scope) (scopes : Scopes) : Scopes :=
  ⟨scope, scopes.current :: scopes.outer⟩

/-- Leaves a scope; the scope of the file is never left. -/
def pop (scopes : Scopes) : Scopes :=
  match scopes.outer with
  | scope :: outer => ⟨scope, outer⟩
  | [] => scopes

/-- Notes whether the last statement of the current scope ended with a semicolon. -/
def setAfterSemicolon (value : Bool) (scopes : Scopes) : Scopes :=
  { scopes with current.afterSemicolon := value }

@[simp] theorem pop_push (scope : Scope) (scopes : Scopes) : (scopes.push scope).pop = scopes := rfl

@[simp] theorem height_push (scope : Scope) (scopes : Scopes) :
    (scopes.push scope).height = scopes.height + 1 := by
  simp [push, height]

end Scopes
end StarlarkSyntax
