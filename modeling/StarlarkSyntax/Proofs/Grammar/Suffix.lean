import StarlarkSyntax.Proofs.Grammar.Shape
/-!
# Brackets after expressions

Brackets after an expression hold a slice if there is a colon in them that is outside all brackets in there
and does not end the parameters of a lambda (`Shape.HoldsSliceColon`). Which node a colon is a child of is
seen in the shape, so the tokens are taken from it with the kinds of their nodes (`Shape.ownedAll`).

`Shape.FitsBrackets` says of the children of such a node that its kind is the one they ask for.
-/

set_option autoImplicit false

namespace StarlarkSyntax

open Layout (Piece)

/-! ## Brackets -/

/-- The brackets that are open after one more token, unless it closes one that is not open. -/
def depthAfter? (depth : Nat) : Kind → Option Nat
  | .opening _ => some (depth + 1)
  | .closing _ => if depth = 0 then none else some (depth - 1)
  | _ => some depth

/-- The brackets that are open after some tokens, unless one is closed that is not open. -/
def depthAfterAll? (depth : Nat) (pieces : List Piece) : Option Nat :=
  pieces.foldlM (fun depth piece => depthAfter? depth piece.1) depth

/-- All brackets that are opened among some tokens are closed there, and no others. -/
def Matched (pieces : List Piece) : Prop := depthAfterAll? 0 pieces = some 0

theorem depthAfterAll?_append (depth : Nat) (pieces more : List Piece) :
    depthAfterAll? depth (pieces ++ more) = (depthAfterAll? depth pieces).bind (depthAfterAll? · more) :=
  List.foldlM_append

namespace Shape

/-! ## Tokens and their nodes -/

mutual

/-- The tokens of a shape, each with the kind of the node that it is a child of. -/
def owned (owner : NodeKind) : Shape → List (NodeKind × Piece)
  | token piece => [(owner, piece)]
  | node kind _ children => ownedAll kind children

/-- The tokens of several shapes, each with the kind of the node that it is a child of. -/
def ownedAll (owner : NodeKind) : List Shape → List (NodeKind × Piece)
  | [] => []
  | shape :: shapes => owned owner shape ++ ownedAll owner shapes

end

@[simp] theorem owned_token (owner : NodeKind) (piece : Piece) :
    (token piece).owned owner = [(owner, piece)] := rfl

@[simp] theorem owned_node (owner kind : NodeKind) (message? : Option String) (children : List Shape) :
    (node kind message? children).owned owner = ownedAll kind children := rfl

@[simp] theorem ownedAll_nil (owner : NodeKind) : ownedAll owner [] = [] := rfl

@[simp] theorem ownedAll_cons (owner : NodeKind) (shape : Shape) (shapes : List Shape) :
    ownedAll owner (shape :: shapes) = shape.owned owner ++ ownedAll owner shapes := rfl

@[simp] theorem ownedAll_append (owner : NodeKind) (s t : List Shape) :
    ownedAll owner (s ++ t) = ownedAll owner s ++ ownedAll owner t := by
  induction s with
  | nil => rfl
  | cons shape s ih => rw [List.cons_append, ownedAll_cons, ih, ownedAll_cons, List.append_assoc]

mutual

theorem map_owned (owner : NodeKind) (shape : Shape) : (shape.owned owner).map Prod.snd = shape.leaves := by
  cases shape with
  | token piece => rfl
  | node kind message? children => exact map_ownedAll kind children

/-- They are the tokens of the shapes. -/
theorem map_ownedAll (owner : NodeKind) (shapes : List Shape) :
    (ownedAll owner shapes).map Prod.snd = leavesAll shapes := by
  cases shapes with
  | nil => rfl
  | cons shape shapes =>
      rw [ownedAll_cons, List.map_append, map_owned, map_ownedAll, leavesAll_cons]

end

/-! ## Slices -/

/-- After some tokens comes a colon that is outside brackets and not that of a lambda. -/
structure SliceColonAt (before : List (NodeKind × Piece)) (leaf : NodeKind × Piece) : Prop where
  colon : leaf.2.1 = .colon
  owner : leaf.1 ≠ .lambdaExpression
  outside : Matched (before.map Prod.snd)

/-- There is a colon that makes a slice. -/
def HoldsSliceColon (owner : NodeKind) (inside : List Shape) : Prop :=
  ∃ before leaf after, ownedAll owner inside = before ++ leaf :: after ∧ SliceColonAt before leaf

/-- One of the items has a colon of its own that makes a slice. -/
def HasSliceItem (owner : NodeKind) (inside : List Shape) : Prop :=
  ∃ before front colon back after,
    inside = before ++ node .sliceItem none (front ++ token colon :: back) :: after ∧
      SliceColonAt (ownedAll owner before ++ ownedAll .sliceItem front) (.sliceItem, colon)

/-- Brackets with these contents make a slice if there is a colon that makes one, and then an item has such
a colon. Otherwise they make a subscript. -/
def BracketsMake (kind : NodeKind) (inside : List Shape) : Prop :=
  HoldsSliceColon kind inside ∧ kind = .sliceExpression ∧ HasSliceItem kind inside ∨
    ¬HoldsSliceColon kind inside ∧ kind = .subscriptionExpression

/-- An expression, a bracket, its contents and the bracket that closes it, and what they make. -/
def FitsBrackets (kind : NodeKind) (children : List Shape) : Prop :=
  ∃ (base : Shape) (opening : Piece) (inside : List Shape) (closing : Piece),
    children = base :: token opening :: inside ++ [token closing] ∧
      (∃ baseKind message? parts, base = node baseKind message? parts) ∧
      opening.1 = .opening .bracket ∧ closing.1 = .closing .bracket ∧ Matched (leavesAll inside) ∧
      BracketsMake kind inside

/-- A colon of an item is a colon in the brackets. -/
theorem HasSliceItem.holds {owner : NodeKind} {inside : List Shape} (has : HasSliceItem owner inside) :
    HoldsSliceColon owner inside := by
  obtain ⟨before, front, colon, back, after, rfl, here⟩ := has
  exact ⟨_, _, ownedAll .sliceItem back ++ ownedAll owner after, by simp, here⟩

end Shape
end StarlarkSyntax
