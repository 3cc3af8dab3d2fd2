import Mathlib.Data.List.Basic
import StarlarkSyntax.Lexeme.Grammar
import StarlarkSyntax.Proofs.Grammar.Shape
/-!
# Pieces that can be written

A piece that stands alone is read back from its own text as one token of its kind. Names and literals
are pieces of that sort; the other tokens of a program have only one spelling. A line is written by
putting one space between its pieces.
-/

set_option autoImplicit false

namespace StarlarkSyntax

open Layout (Piece)

/-- Is a text read as one token of a kind, and nothing else? -/
def StandsAlone (piece : Piece) : Prop :=
  ∃ c rest, piece.2 = c :: rest ∧ lexeme c rest = .ofKind (rest.length + 1) piece.1

/-- A name, which is no reserved word. -/
structure Name where
  spelling : List Char
  stands : StandsAlone (.identifier, spelling)

/-- A number or a string. -/
structure Literal where
  kind : Kind
  spelling : List Char
  literal : kind.isLiteral = true
  stands : StandsAlone (kind, spelling)

/-- The piece of a kind that is written in one way only. -/
def spelled (kind : Kind) : Piece := (kind, kind.name.toList)

namespace Shape

/-- The token of a kind that is written in one way only. -/
def ofKind (kind : Kind) : Shape := .token (spelled kind)

/-- A name as a token. -/
def ofName (name : Name) : Shape := .token (.identifier, name.spelling)

/-- Shapes with commas between them. -/
def withCommas : List Shape → List Shape
  | [] => []
  | shape :: shapes => shape :: shapes.flatMap fun next => [ofKind .comma, next]

@[simp] theorem leaves_ofKind (kind : Kind) : (ofKind kind).leaves = [spelled kind] := rfl

@[simp] theorem leaves_ofName (name : Name) :
    (ofName name).leaves = [(.identifier, name.spelling)] := rfl

theorem leavesAll_flatMap {α : Type} (items : List α) (shapes : α → List Shape) :
    leavesAll (items.flatMap shapes) = items.flatMap fun item => leavesAll (shapes item) := by
  induction items with
  | nil => rfl
  | cons item items ih => rw [List.flatMap_cons, leavesAll_append, ih, List.flatMap_cons]

theorem leavesAll_flatMap_congr {α : Type} {items : List α} {shapes shapes' : α → List Shape}
    (same : ∀ item ∈ items, leavesAll (shapes item) = leavesAll (shapes' item)) :
    leavesAll (items.flatMap shapes) = leavesAll (items.flatMap shapes') := by
  rw [leavesAll_flatMap, leavesAll_flatMap]
  exact List.flatMap_congr same

theorem leavesAll_withCommas_congr {α : Type} {items : List α} {shape shape' : α → Shape}
    (same : ∀ item ∈ items, (shape item).leaves = (shape' item).leaves) :
    leavesAll (withCommas (items.map shape)) = leavesAll (withCommas (items.map shape')) := by
  cases items with
  | nil => rfl
  | cons item items =>
      obtain ⟨first, others⟩ := List.forall_mem_cons.1 same
      simp only [List.map_cons, withCommas, leavesAll_cons, List.flatMap_map, first]
      rw [leavesAll_flatMap_congr fun item mem => ?_]
      simp [others item mem]

end Shape

/-- Pieces with a space between any two of them. -/
def spaced : List Piece → List Char
  | [] => []
  | [piece] => piece.2
  | piece :: next :: pieces => piece.2 ++ ' ' :: spaced (next :: pieces)

end StarlarkSyntax
