import StarlarkSyntax.Proofs.Grammar.Form
import StarlarkSyntax.Proofs.Grammar.Suffix
/-!
# Well made shapes

`Shape.WellMade` says all that is known of a node of a text without errors: what it is made of, how tightly
its operands bind, and what the brackets after an expression make. `Shape.Bound` says it of a shape and
everything in it, and so of all the nodes of a tree (`Tree.bound_of_mem_nodes`).
-/

set_option autoImplicit false

namespace StarlarkSyntax

open Layout (Piece)

namespace Shape

/-- Is a node made of what it should be? -/
def WellFormed : Shape → Prop
  | token _ => True
  | node kind _ children => children ∈ kind.form

/-- Do brackets after an expression make what they should? -/
def HasBrackets : Shape → Prop
  | node .sliceExpression _ children => FitsBrackets .sliceExpression children
  | node .subscriptionExpression _ children => FitsBrackets .subscriptionExpression children
  | _ => True

/-- Is a node made of what it should be, do its operands bind tightly enough, and do brackets make what
they should? -/
structure WellMade (shape : Shape) : Prop where
  wellFormed : shape.WellFormed
  bindsTightly : shape.BindsTightly
  hasBrackets : shape.HasBrackets

mutual

/-- Is a shape well made, and everything in it? -/
def Bound : Shape → Prop
  | token _ => True
  | node kind message? children => (node kind message? children).WellMade ∧ AllBound children

/-- Are several shapes well made, and everything in them? -/
def AllBound : List Shape → Prop
  | [] => True
  | shape :: shapes => Bound shape ∧ AllBound shapes

end

@[simp] theorem bound_token (piece : Piece) : (token piece).Bound ↔ True := Iff.rfl

@[simp] theorem bound_node (kind : NodeKind) (message? : Option String) (children : List Shape) :
    (node kind message? children).Bound ↔
      (node kind message? children).WellMade ∧ AllBound children := Iff.rfl

@[simp] theorem allBound_nil : AllBound [] ↔ True := Iff.rfl

@[simp] theorem allBound_cons (shape : Shape) (shapes : List Shape) :
    AllBound (shape :: shapes) ↔ shape.Bound ∧ AllBound shapes := Iff.rfl

@[simp] theorem allBound_append (s t : List Shape) : AllBound (s ++ t) ↔ AllBound s ∧ AllBound t := by
  induction s with
  | nil => simp
  | cons shape s ih => rw [List.cons_append, allBound_cons, ih, allBound_cons, and_assoc]

theorem allBound_iff (shapes : List Shape) : AllBound shapes ↔ ∀ shape ∈ shapes, shape.Bound := by
  induction shapes with
  | nil => simp
  | cons shape shapes ih => rw [allBound_cons, ih, List.forall_mem_cons]

theorem Bound.wellMade {shape : Shape} (bound : shape.Bound) : shape.WellMade := by
  cases shape with
  | token piece => exact ⟨trivial, trivial, trivial⟩
  | node kind message? children => exact bound.1

mutual

/-- What is said of tokens, and of a well made node if it is said of its children, is said of every well made
shape. -/
theorem Bound.induction {motive : Shape → Prop} (ofToken : ∀ piece, motive (token piece))
    (ofNode : ∀ kind message? children, (node kind message? children).WellMade →
      (∀ shape ∈ children, motive shape) → motive (node kind message? children))
    (shape : Shape) (bound : shape.Bound) : motive shape := by
  cases shape with
  | token piece => exact ofToken piece
  | node kind message? children =>
      exact ofNode kind message? children bound.1 (AllBound.induction ofToken ofNode children bound.2)

theorem AllBound.induction {motive : Shape → Prop} (ofToken : ∀ piece, motive (token piece))
    (ofNode : ∀ kind message? children, (node kind message? children).WellMade →
      (∀ shape ∈ children, motive shape) → motive (node kind message? children))
    (shapes : List Shape) (bound : AllBound shapes) : ∀ shape ∈ shapes, motive shape := by
  cases shapes with
  | nil => nofun
  | cons shape shapes =>
      exact List.forall_mem_cons.2 ⟨Bound.induction ofToken ofNode shape bound.1,
        AllBound.induction ofToken ofNode shapes bound.2⟩

end

end Shape

namespace Tree

mutual

/-- What is said of everything in the shape of a tree is said of all its nodes. -/
theorem bound_of_mem_preorderFrom (depth : Nat) (tree : Tree) (bound : Shape.AllBound tree.shape) :
    ∀ part ∈ preorderFrom depth tree, part.2.isNode = true →
      ∃ shape, part.2.shape = [shape] ∧ shape.Bound := by
  cases tree with
  | leaf token =>
      rw [preorderFrom_leaf]
      rintro _ mem node
      cases List.mem_singleton.1 mem
      cases node
  | node kind message? span children =>
      rw [shape, Shape.allBound_cons, Shape.bound_node] at bound
      rw [preorderFrom_node]
      refine List.forall_mem_cons.2 ⟨fun _ => ⟨_, rfl, bound.1⟩, ?_⟩
      exact bound_of_mem_preorderOfAll (depth + 1) children bound.1.2

theorem bound_of_mem_preorderOfAll (depth : Nat) (trees : List Tree)
    (bound : Shape.AllBound (shapes trees)) :
    ∀ part ∈ preorderOfAll depth trees, part.2.isNode = true →
      ∃ shape, part.2.shape = [shape] ∧ shape.Bound := by
  cases trees with
  | nil =>
      rw [preorderOfAll_nil]
      nofun
  | cons tree trees =>
      rw [shapes, Shape.allBound_append] at bound
      rw [preorderOfAll_cons]
      exact List.forall_mem_append.2 ⟨bound_of_mem_preorderFrom depth tree bound.1,
        bound_of_mem_preorderOfAll depth trees bound.2⟩

end

theorem bound_of_mem_nodes {tree : Tree} (bound : Shape.AllBound tree.shape) {node : Tree}
    (mem : node ∈ tree.nodes) : ∃ shape, node.shape = [shape] ∧ shape.Bound := by
  obtain ⟨⟨depth, part⟩, mem, is⟩ := List.mem_filterMap.1 mem
  dsimp only at is
  split at is
  · rename_i isNode
    cases is
    exact bound_of_mem_preorderFrom 0 tree bound _ mem isNode
  · cases is

end Tree
end StarlarkSyntax
