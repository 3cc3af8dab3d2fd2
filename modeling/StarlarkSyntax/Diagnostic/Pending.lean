import StarlarkSyntax.Diagnostic.Basic
/-!
# Pending diagnostics

Diagnostics are collected as they are made and given out all at once, in the order of the code: by
input, then by place, and in the order in which they came where both are the same. What is about no
input comes first, and in an input what has no place.
-/

set_option autoImplicit false

namespace StarlarkSyntax

namespace Diagnostic

/-- The order of optional things, with nothing before everything else. -/
def optionLe {α : Type} (le : α → α → Bool) : Option α → Option α → Bool
  | none, _ => true
  | some _, none => false
  | some a, some b => le a b

/-- Does the first diagnostic come before the second, or at the same place? -/
def comesBefore (a b : Diagnostic) : Bool :=
  if a.input? = b.input? then optionLe (fun x y => decide (x ≤ y)) a.location? b.location?
  else optionLe (fun x y => decide (x.index ≤ y.index)) a.input? b.input?

end Diagnostic

/-- The diagnostics that wait to be given out, in the order in which they came. -/
structure Pending where
  diagnostics : Array Diagnostic := #[]
deriving Inhabited

namespace Pending

/-- Adds a diagnostic. -/
def register (pending : Pending) (diagnostic : Diagnostic) : Pending :=
  ⟨pending.diagnostics.push diagnostic⟩

/-- Adds several diagnostics. -/
def extend (pending : Pending) (diagnostics : List Diagnostic) : Pending :=
  ⟨pending.diagnostics ++ diagnostics⟩

/-- How many diagnostics wait. -/
def length (pending : Pending) : Nat :=
  pending.diagnostics.size

/-- Does none wait? -/
def isEmpty (pending : Pending) : Bool :=
  pending.diagnostics.isEmpty

/-- Does an error wait? Other levels do not count. -/
def hasErrors (pending : Pending) : Bool :=
  pending.diagnostics.any (·.level = .error)

/-- Gives out all the diagnostics in the order of the code, and leaves none. -/
def emit (pending : Pending) : List Diagnostic × Pending :=
  (pending.diagnostics.toList.mergeSort Diagnostic.comesBefore, {})

end Pending
end StarlarkSyntax
