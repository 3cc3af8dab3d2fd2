/-!
# Carets: places in a text

A caret names a place between two characters by its line and column, both counted from zero. It
sits before the character it points at, so `⟨0, 0⟩` is the very start of a text. Columns count
characters, and only a line feed starts a new line, so a carriage return before it makes no
difference to the lines.

The order on carets is the order of the places they name: `Caret.le_total`, `Caret.le_trans` and
`Caret.le_antisymm` say that it is a linear order, and `Caret.le_advanceOver` that reading on never
goes back.
-/

set_option autoImplicit false

namespace StarlarkSyntax

/-- A place in a text, before the character it points at. -/
structure Caret where
  line : Nat := 0
  column : Nat := 0
deriving DecidableEq, Inhabited

namespace Caret

/-- The caret after reading one character. -/
def advance (caret : Caret) (c : Char) : Caret :=
  if c = '\n' then ⟨caret.line + 1, 0⟩ else ⟨caret.line, caret.column + 1⟩

/-- The caret after reading every character of a text. -/
def advanceOver (caret : Caret) (text : List Char) : Caret :=
  text.foldl advance caret

/-- The place of a caret as it is shown to people, who count lines and columns from one. -/
def display (caret : Caret) : String :=
  toString (caret.line + 1) ++ ":" ++ toString (caret.column + 1)

/-! ## The order of places -/

/-- Lines come first, then columns. -/
protected def le (a b : Caret) : Prop :=
  a.line < b.line ∨ (a.line = b.line ∧ a.column ≤ b.column)

instance : LE Caret := ⟨Caret.le⟩

instance : LT Caret := ⟨fun a b => a ≤ b ∧ ¬ b ≤ a⟩

theorem le_def (a b : Caret) :
    a ≤ b ↔ a.line < b.line ∨ (a.line = b.line ∧ a.column ≤ b.column) :=
  Iff.rfl

instance (a b : Caret) : Decidable (a ≤ b) :=
  inferInstanceAs (Decidable (_ ∨ _))

instance (a b : Caret) : Decidable (a < b) :=
  inferInstanceAs (Decidable (_ ∧ _))

theorem lt_def (a b : Caret) :
    a < b ↔ a.line < b.line ∨ (a.line = b.line ∧ a.column < b.column) := by
  change a ≤ b ∧ ¬ b ≤ a ↔ _
  rw [le_def, le_def]
  omega

protected theorem le_refl (a : Caret) : a ≤ a := by
  rw [le_def]
  omega

protected theorem le_trans {a b c : Caret} (hab : a ≤ b) (hbc : b ≤ c) : a ≤ c := by
  rw [le_def] at *
  omega

protected theorem le_total (a b : Caret) : a ≤ b ∨ b ≤ a := by
  rw [le_def, le_def]
  omega

protected theorem le_antisymm {a b : Caret} (hab : a ≤ b) (hba : b ≤ a) : a = b := by
  obtain ⟨la, ca⟩ := a
  obtain ⟨lb, cb⟩ := b
  simp only [le_def] at hab hba
  simp only [mk.injEq]
  omega

instance : Min Caret := minOfLe
instance : Max Caret := maxOfLe

theorem min_def (a b : Caret) : min a b = if a ≤ b then a else b := rfl

theorem max_def (a b : Caret) : max a b = if a ≤ b then b else a := rfl

theorem min_le_max (a b : Caret) : min a b ≤ max a b := by
  rw [min_def, max_def]
  split
  · assumption
  · exact (Caret.le_total a b).resolve_left ‹_›

/-! ## Reading on -/

theorem le_advance (caret : Caret) (c : Char) : caret ≤ caret.advance c := by
  unfold advance
  split
  · exact .inl (Nat.lt_succ_self _)
  · exact .inr ⟨rfl, Nat.le_succ _⟩

@[simp] theorem advanceOver_nil (caret : Caret) : caret.advanceOver [] = caret := rfl

@[simp] theorem advanceOver_cons (caret : Caret) (c : Char) (text : List Char) :
    caret.advanceOver (c :: text) = (caret.advance c).advanceOver text := rfl

theorem advanceOver_append (caret : Caret) (s t : List Char) :
    caret.advanceOver (s ++ t) = (caret.advanceOver s).advanceOver t :=
  List.foldl_append

theorem le_advanceOver (caret : Caret) (text : List Char) : caret ≤ caret.advanceOver text := by
  induction text generalizing caret with
  | nil => exact Caret.le_refl caret
  | cons c text ih => exact Caret.le_trans (le_advance caret c) (ih _)

end Caret
end StarlarkSyntax
