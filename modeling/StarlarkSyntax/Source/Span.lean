import StarlarkSyntax.Source.Caret
/-!
# Spans: stretches of a text

A span runs from one caret to another that is not before it; the order is part of the type, so
nothing has to ask which end comes first. Spans may cross lines and may be empty, which is how
things of no width, such as a missing token, are located.

`Span.intersection?` is the overlap of two spans. Spans that only touch do not overlap, except that
an empty span still overlaps a span that contains it, so that a mark of no width is never lost.
-/

set_option autoImplicit false

namespace StarlarkSyntax

/-- A stretch of text between two carets. -/
structure Span where
  start : Caret
  stop : Caret
  start_le_stop : start ≤ stop
deriving DecidableEq

namespace Span

/-- The span between two carets, whichever comes first. -/
def ofCarets (a b : Caret) : Span :=
  ⟨min a b, max a b, Caret.min_le_max a b⟩

/-- The empty span at a caret. -/
def point (caret : Caret) : Span :=
  ⟨caret, caret, Caret.le_refl caret⟩

instance : Inhabited Span := ⟨point {}⟩

/-- Is the span of no width? -/
def isEmpty (span : Span) : Bool :=
  span.start = span.stop

/-- Does the span cover the whole of the other one? -/
def contains (span other : Span) : Bool :=
  span.start ≤ other.start && other.stop ≤ span.stop

/-- The smallest span that covers two spans and what lies between them. -/
def cover (a b : Span) : Span :=
  ofCarets (min a.start b.start) (max a.stop b.stop)

/-- The overlap of two spans. Two spans that share a single caret overlap only if one of them is
empty and lies in the other. -/
def intersection? (a b : Span) : Option Span :=
  let start := max a.start b.start
  let stop := min a.stop b.stop
  if start < stop ∨ start = stop ∧ (a.isEmpty || b.isEmpty) ∧ (a.contains b || b.contains a) then
    some (ofCarets start stop)
  else
    none

/-- The span as it is shown to people. -/
def display (span : Span) : String :=
  span.start.display ++ ".." ++ span.stop.display

theorem ofCarets_eq {a b : Caret} (h : a ≤ b) : ofCarets a b = ⟨a, b, h⟩ := by
  simp only [ofCarets, Caret.min_def, Caret.max_def, if_pos h]

theorem ofCarets_comm (a b : Caret) : ofCarets a b = ofCarets b a := by
  by_cases hab : a ≤ b
  · by_cases hba : b ≤ a
    · rw [Caret.le_antisymm hab hba]
    · simp [ofCarets, Caret.min_def, Caret.max_def, hab, hba]
  · have hba := (Caret.le_total a b).resolve_left hab
    simp [ofCarets, Caret.min_def, Caret.max_def, hab, hba]

@[simp] theorem isEmpty_point (caret : Caret) : (point caret).isEmpty = true := by
  simp [point, isEmpty]

theorem isEmpty_iff (span : Span) : span.isEmpty = true ↔ span.start = span.stop := by
  simp [isEmpty]

end Span
end StarlarkSyntax
