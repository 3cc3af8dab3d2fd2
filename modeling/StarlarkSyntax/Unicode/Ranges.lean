/-!
# Tables of characters

A property of characters that a standard lists rather than computes is kept as a table of ranges
of code points, both ends included, in increasing order. `InRanges` is the property that a table
stands for, and `inRanges` decides it.
-/

set_option autoImplicit false

namespace StarlarkSyntax.Unicode

/-- Ranges of code points, both ends included. -/
abbrev Ranges := List (Nat × Nat)

/-- Is the code point of a character in one of the ranges? -/
def inRanges (ranges : Ranges) (c : Char) : Bool :=
  ranges.any fun (first, last) => first ≤ c.toNat && c.toNat ≤ last

/-- The property that a table stands for. -/
def InRanges (ranges : Ranges) (c : Char) : Prop :=
  ∃ range ∈ ranges, range.1 ≤ c.toNat ∧ c.toNat ≤ range.2

theorem inRanges_iff (ranges : Ranges) (c : Char) :
    inRanges ranges c = true ↔ InRanges ranges c := by
  simp [inRanges, InRanges, List.any_eq_true]

end StarlarkSyntax.Unicode
