import StarlarkSyntax.Proofs.Builder.Draft
import StarlarkSyntax.Proofs.Builder.Leaves
import StarlarkSyntax.Proofs.Layout.Lines
/-!
# Shapes of trees

What a tree is apart from trivia and the places of its tokens: the kinds and messages of its nodes,
how they are nested, and the tokens that they have of their own, those of layout included. The leaves
of a shape are what a grammar reads, so a shape is also something that can be written down.

A tree without invalid tokens has the same shape as the tree that was drawn directly
(`Tree.shape_eq`), and if no node of its shape has a message then it has no errors
(`Tree.errors_eq_nil`).
-/

set_option autoImplicit false

namespace StarlarkSyntax

open Layout (Piece)

/-- A token without its place. -/
def Token.piece (token : Token) : Piece := (token.kind, token.body)

/-- A tree of tokens without places. -/
inductive Shape where
  | token (piece : Piece)
  | node (kind : NodeKind) (message? : Option String) (children : List Shape)
deriving Inhabited

namespace Shape

mutual

/-- The tokens of a shape, from left to right. -/
def leaves : Shape → List Piece
  | token piece => [piece]
  | node _ _ children => leavesAll children

/-- The tokens of several shapes. -/
def leavesAll : List Shape → List Piece
  | [] => []
  | shape :: shapes => leaves shape ++ leavesAll shapes

end

mutual

/-- Does no node have a message? -/
def isClean : Shape → Bool
  | token _ => true
  | node _ message? children => message?.isNone && allClean children

/-- Does no node of several shapes have a message? -/
def allClean : List Shape → Bool
  | [] => true
  | shape :: shapes => isClean shape && allClean shapes

end

@[simp] theorem leaves_token (piece : Piece) : (token piece).leaves = [piece] := rfl

@[simp] theorem leaves_node (kind : NodeKind) (message? : Option String) (children : List Shape) :
    (node kind message? children).leaves = leavesAll children := rfl

@[simp] theorem leavesAll_nil : leavesAll [] = [] := rfl

@[simp] theorem leavesAll_cons (shape : Shape) (shapes : List Shape) :
    leavesAll (shape :: shapes) = shape.leaves ++ leavesAll shapes := rfl

@[simp] theorem leavesAll_append (s t : List Shape) :
    leavesAll (s ++ t) = leavesAll s ++ leavesAll t := by
  induction s with
  | nil => rfl
  | cons shape s ih => rw [List.cons_append, leavesAll_cons, ih, leavesAll_cons, List.append_assoc]

@[simp] theorem leavesAll_map_token (pieces : List Piece) : leavesAll (pieces.map token) = pieces := by
  induction pieces with
  | nil => rfl
  | cons piece pieces ih => rw [List.map_cons, leavesAll_cons, ih, leaves_token, List.singleton_append]

@[simp] theorem isClean_token (piece : Piece) : (token piece).isClean = true := rfl

@[simp] theorem isClean_node (kind : NodeKind) (message? : Option String) (children : List Shape) :
    (node kind message? children).isClean = (message?.isNone && allClean children) := rfl

@[simp] theorem allClean_nil : allClean [] = true := rfl

@[simp] theorem allClean_cons (shape : Shape) (shapes : List Shape) :
    allClean (shape :: shapes) = (shape.isClean && allClean shapes) := rfl

@[simp] theorem allClean_append (s t : List Shape) :
    allClean (s ++ t) = (allClean s && allClean t) := by
  induction s with
  | nil => rfl
  | cons shape s ih => rw [List.cons_append, allClean_cons, ih, allClean_cons, Bool.and_assoc]

end Shape

namespace Tree

mutual

/-- The shape of a tree, unless it is a token that leaves nothing. -/
def shape : Tree → List Shape
  | leaf token => if token.kind.isTrivia then [] else [.token token.piece]
  | node kind message? _ children => [.node kind message? (shapes children)]

/-- The shapes of several trees. -/
def shapes : List Tree → List Shape
  | [] => []
  | tree :: trees => shape tree ++ shapes trees

end

end Tree

namespace Bare

mutual

/-- The shape of a tree that was drawn directly. -/
def shape : Bare → Shape
  | .token leaf => .token leaf.piece
  | .node kind message? children => .node kind message? (shapes children)

/-- The shapes of several trees. -/
def shapes : List Bare → List Shape
  | [] => []
  | tree :: trees => shape tree :: shapes trees

end

@[simp] theorem shapes_append (s t : List Bare) : shapes (s ++ t) = shapes s ++ shapes t := by
  induction s with
  | nil => rfl
  | cons tree s ih => exact congrArg (shape tree :: ·) ih

end Bare

namespace Tree

@[simp] theorem shapes_append (s t : List Tree) : shapes (s ++ t) = shapes s ++ shapes t := by
  induction s with
  | nil => rfl
  | cons tree s ih => rw [List.cons_append, shapes, shapes, ih, List.append_assoc]

/-- Nothing but trivia is lost in a tree without invalid tokens. -/
theorem holdsInvalid_eq_false {kind : NodeKind} {children : List Tree}
    (valid : ∀ token ∈ leavesOfAll children, token.kind ≠ .invalid) :
    holdsInvalid kind children = false := by
  unfold holdsInvalid
  split
  · rename_i token
    have kept : token.kind ≠ .invalid := valid token (by simp)
    simp [kept]
  · rfl

mutual

/-- A tree that was drawn directly has the same shape. -/
theorem shape_eq (tree : Tree) (valid : ∀ token ∈ tree.leaves, token.kind ≠ .invalid) :
    tree.shape = Bare.shapes tree.bare := by
  cases tree with
  | leaf token =>
      have kept : token.kind ≠ .invalid := valid token (by simp)
      by_cases trivia : token.kind.isTrivia = true
      · simp [shape, bare, trivia, Kind.isSignificant, Bare.shapes]
      · have significant : token.kind.isSignificant = true := by
          simp [Kind.isSignificant, trivia, kept]
        rw [shape, if_neg trivia, bare, if_pos significant]
        rfl
  | node kind message? span children =>
      rw [leaves_node] at valid
      rw [shape, bare, holdsInvalid_eq_false valid, if_neg Bool.false_ne_true, shapes_eq children valid]
      rfl

theorem shapes_eq (trees : List Tree)
    (valid : ∀ token ∈ leavesOfAll trees, token.kind ≠ .invalid) :
    shapes trees = Bare.shapes (bareAll trees) := by
  cases trees with
  | nil => rfl
  | cons tree trees =>
      rw [leavesOfAll_cons] at valid
      obtain ⟨here, rest⟩ := List.forall_mem_append.1 valid
      rw [shapes, bareAll, Bare.shapes_append, shape_eq tree here, shapes_eq trees rest]

end

mutual

/-- Nothing but trivia is left out of the shape of a tree. -/
theorem leavesAll_shape (tree : Tree) : Shape.leavesAll tree.shape = Layout.pieces tree.leaves := by
  cases tree with
  | leaf token =>
      rw [shape, leaves_leaf, Layout.pieces_cons, Layout.isCode]
      cases token.kind.isTrivia <;> rfl
  | node kind message? span children =>
      rw [shape, leaves_node, ← leavesAll_shapes children]
      exact List.append_nil _

theorem leavesAll_shapes (trees : List Tree) :
    Shape.leavesAll (shapes trees) = Layout.pieces (leavesOfAll trees) := by
  cases trees with
  | nil =>
      rw [leavesOfAll_nil]
      rfl
  | cons tree trees =>
      rw [shapes, leavesOfAll_cons, Shape.leavesAll_append, Layout.pieces_append, leavesAll_shape tree,
        leavesAll_shapes trees]

end

/-- The part of the messages that a place in the walk gives. -/
def message (part : Nat × Tree) : Option (String × Span) :=
  (if part.2.isNode then some part.2 else none).bind fun node => node.message?.map (·, node.span)

theorem errors_eq (tree : Tree) : tree.errors = tree.preorder.filterMap message := by
  rw [errors, nodes, List.filterMap_filterMap]
  rfl

mutual

theorem filterMap_preorderFrom (depth : Nat) (tree : Tree)
    (clean : Shape.allClean tree.shape = true) :
    (preorderFrom depth tree).filterMap message = [] := by
  cases tree with
  | leaf token =>
      rw [preorderFrom_leaf]
      rfl
  | node kind message? span children =>
      rw [shape, Shape.allClean_cons, Shape.isClean_node, Bool.and_eq_true, Bool.and_eq_true] at clean
      obtain ⟨⟨here, below⟩, -⟩ := clean
      rw [preorderFrom_node, List.filterMap_cons, filterMap_preorderOfAll _ children below]
      cases message? with
      | none => rfl
      | some text => cases here

theorem filterMap_preorderOfAll (depth : Nat) (trees : List Tree)
    (clean : Shape.allClean (shapes trees) = true) :
    (preorderOfAll depth trees).filterMap message = [] := by
  cases trees with
  | nil =>
      rw [preorderOfAll_nil]
      rfl
  | cons tree trees =>
      rw [shapes, Shape.allClean_append, Bool.and_eq_true] at clean
      rw [preorderOfAll_cons, List.filterMap_append, filterMap_preorderFrom depth tree clean.1,
        filterMap_preorderOfAll depth trees clean.2]
      rfl

end

/-- If no node has a message, there are no errors. -/
theorem errors_eq_nil {tree : Tree} (clean : Shape.allClean tree.shape = true) : tree.errors = [] :=
  tree.errors_eq.trans (filterMap_preorderFrom 0 tree clean)

mutual

theorem allClean_shape (depth : Nat) (tree : Tree)
    (none : (preorderFrom depth tree).filterMap message = []) : Shape.allClean tree.shape = true := by
  cases tree with
  | leaf token =>
      rw [shape]
      split <;> rfl
  | node kind message? span children =>
      rw [preorderFrom_node, List.filterMap_cons] at none
      cases message? with
      | some text => cases none
      | none => simpa [shape] using allClean_shapes _ children none

theorem allClean_shapes (depth : Nat) (trees : List Tree)
    (none : (preorderOfAll depth trees).filterMap message = []) :
    Shape.allClean (shapes trees) = true := by
  cases trees with
  | nil => rfl
  | cons tree trees =>
      rw [preorderOfAll_cons, List.filterMap_append, List.append_eq_nil_iff] at none
      rw [shapes, Shape.allClean_append, allClean_shape depth tree none.1,
        allClean_shapes depth trees none.2]
      rfl

end

/-- If there are no errors, no node has a message. -/
theorem clean_of_errors {tree : Tree} (none : tree.errors = []) : Shape.allClean tree.shape = true :=
  allClean_shape 0 tree (tree.errors_eq ▸ none)

end Tree
end StarlarkSyntax
