import Mathlib.Data.List.Nodup
import StarlarkSyntax.Proofs.Grammar.Shape
import StarlarkSyntax.Proofs.Text.Quoted
import StarlarkSyntax.Tree.Outline
/-!
# Outlines

The outline of a tree is made of its shape (`Tree.outline_eq`), line by line: each part of the shape has a line of
its own, with the level that it is at and what is shown of it (`Shape.linesAll`). The text can be cut into these
lines again, since what is shown has no line feed in it and does not begin with a space (`outlineLines_inj`). And
the lines can be made into the shape again, since the lines below a node are those up to the next one that is not
deeper, and what is shown tells nodes, layout and other tokens apart (`Shape.sketchAll_of_lines`).

So an outline determines the tree, apart from what it leaves out: trivia, places, and of tokens that are not
layout the kinds (`Tree.outline_eq_iff`).
-/

set_option autoImplicit false

namespace StarlarkSyntax

open Text (eq_of_append_stop not_mem_quote quote_inj)

/-! ## Outlines of shapes -/

namespace Shape

/-- What an outline shows of a piece. -/
def pieceContent (piece : Layout.Piece) : List Char :=
  if piece.1.isLayout then '<' :: (piece.1.name.toList ++ ['>']) else Text.quote piece.2

mutual

/-- The outline of a shape at some level. -/
def outline (depth : Nat) : Shape → List Char
  | token piece => Tree.outlineLine depth (pieceContent piece)
  | node kind message? children =>
    Tree.outlineLine depth (Tree.nodeContent kind message?) ++ outlineAll (depth + 1) children

/-- The outline of several shapes. -/
def outlineAll (depth : Nat) : List Shape → List Char
  | [] => []
  | shape :: shapes => outline depth shape ++ outlineAll depth shapes

end

theorem outlineAll_append (depth : Nat) (s t : List Shape) :
    outlineAll depth (s ++ t) = outlineAll depth s ++ outlineAll depth t := by
  induction s with
  | nil => rfl
  | cons shape s ih => rw [List.cons_append, outlineAll, ih, outlineAll, List.append_assoc]

end Shape

namespace Tree

/-- The line of an outline for the top of a tree. -/
def outlineOf (depth : Nat) (part : Tree) : List Char :=
  ((content? part).map (outlineLine depth)).getD []

mutual

theorem outlineFrom_eq (depth : Nat) (tree : Tree) :
    (preorderFrom depth tree).flatMap (fun part => outlineOf part.1 part.2) =
      Shape.outlineAll depth tree.shape := by
  cases tree with
  | leaf token =>
      rw [preorderFrom_leaf, shape, List.flatMap_singleton, outlineOf, content?, tokenContent?]
      cases trivia : token.kind.isTrivia with
      | true => rfl
      | false =>
          simp only [Bool.false_eq_true, if_false]
          rw [Shape.outlineAll, Shape.outlineAll, List.append_nil, Shape.outline, Shape.pieceContent]
          cases layout : token.kind.isLayout <;> simp [Token.piece, layout]
  | node kind message? span children =>
      rw [preorderFrom_node, List.flatMap_cons, outlineOfAll_eq (depth + 1) children, shape,
        Shape.outlineAll, Shape.outlineAll, List.append_nil, Shape.outline]
      rfl

theorem outlineOfAll_eq (depth : Nat) (trees : List Tree) :
    (preorderOfAll depth trees).flatMap (fun part => outlineOf part.1 part.2) =
      Shape.outlineAll depth (shapes trees) := by
  cases trees with
  | nil => simp [shapes, Shape.outlineAll]
  | cons tree trees =>
      rw [preorderOfAll_cons, List.flatMap_append, outlineFrom_eq depth tree, outlineOfAll_eq depth trees,
        shapes, Shape.outlineAll_append]

end

/-- The outline of a tree shows its shape. -/
theorem outline_eq (tree : Tree) : tree.outline = Shape.outlineAll 0 tree.shape :=
  outlineFrom_eq 0 tree

end Tree

/-! ## Lines -/

namespace Tree

/-- The outline that some lines make. -/
def outlineLines (lines : List (Nat × List Char)) : List Char :=
  lines.flatMap fun line => outlineLine line.1 line.2

theorem outlineLines_cons (line : Nat × List Char) (lines : List (Nat × List Char)) :
    outlineLines (line :: lines) =
      (List.replicate (2 * line.1) ' ' ++ line.2) ++ '\n' :: outlineLines lines := by
  simp [outlineLines, outlineLine]

/-- Something that a line may show: it is not empty, does not begin with a space and has no line feed in it. -/
structure IsContent (content : List Char) : Prop where
  ne_nil : content ≠ []
  head : content.head? ≠ some ' '
  oneLine : '\n' ∉ content

/-- The level of a line is seen from the spaces before what it shows. -/
theorem indentation_inj {m n : Nat} {s t : List Char} (hs : IsContent s) (ht : IsContent t)
    (same : List.replicate m ' ' ++ s = List.replicate n ' ' ++ t) : m = n ∧ s = t := by
  induction m generalizing n with
  | zero =>
      cases n with
      | zero => exact ⟨rfl, same⟩
      | succ n =>
          refine absurd ?_ hs.head
          rw [List.replicate_zero, List.nil_append] at same
          rw [same]
          rfl
  | succ m ih =>
      cases n with
      | zero =>
          refine absurd ?_ ht.head
          rw [List.replicate_zero, List.nil_append] at same
          rw [← same]
          rfl
      | succ n =>
          rw [List.replicate_succ, List.replicate_succ] at same
          obtain ⟨rfl, rest⟩ := ih (List.cons.inj same).2
          exact ⟨rfl, rest⟩

/-- An outline can be cut into its lines again. -/
theorem outlineLines_inj {lines others : List (Nat × List Char)} (shown : ∀ line ∈ lines, IsContent line.2)
    (shown' : ∀ line ∈ others, IsContent line.2) (same : outlineLines lines = outlineLines others) :
    lines = others := by
  induction lines generalizing others with
  | nil =>
      cases others with
      | nil => rfl
      | cons line others => simp [outlineLines, outlineLine] at same
  | cons line lines ih =>
      cases others with
      | nil => simp [outlineLines, outlineLine] at same
      | cons line' others =>
          obtain ⟨depth, content⟩ := line
          obtain ⟨depth', content'⟩ := line'
          obtain ⟨here, below⟩ := List.forall_mem_cons.1 shown
          obtain ⟨here', below'⟩ := List.forall_mem_cons.1 shown'
          have oneLine {depth : Nat} {content : List Char} (shown : IsContent content) :
              '\n' ∉ List.replicate (2 * depth) ' ' ++ content := by
            simp [shown.oneLine]
          rw [outlineLines_cons, outlineLines_cons] at same
          obtain ⟨first, rest⟩ := eq_of_append_stop (oneLine here) (oneLine here') same
          obtain ⟨level, rfl⟩ := indentation_inj here here' first
          obtain rfl : depth = depth' := by omega
          rw [ih below below' rest]

end Tree

/-! ## What a line shows -/

/-- The labels of kinds are words. -/
theorem NodeKind.isAlpha_of_mem_label (kind : NodeKind) : ∀ c ∈ kind.label.toList, c.isAlpha = true := by
  have word : kind.label.toList.all Char.isAlpha = true := by cases kind <;> decide +kernel
  exact List.all_eq_true.1 word

theorem NodeKind.label_ne_nil (kind : NodeKind) : kind.label.toList ≠ [] := by
  have some : kind.label ≠ "" := by cases kind <;> simp [NodeKind.label]
  simpa using some

theorem NodeKind.label_inj {kind other : NodeKind} (same : kind.label = other.label) : kind = other := by
  have different : (NodeKind.all.map NodeKind.label).Nodup := by simp [NodeKind.all, NodeKind.label]
  exact List.inj_on_of_nodup_map different kind.mem_all other.mem_all same

theorem Kind.name_inj_of_isLayout {kind other : Kind} (layout : kind.isLayout = true)
    (layout' : other.isLayout = true) (same : kind.name = other.name) : kind = other := by
  cases kind <;> simp [Kind.isLayout] at layout <;> cases other <;> simp_all [Kind.isLayout, Kind.name]

namespace Tree

theorem isContent_nodeContent (kind : NodeKind) (message? : Option String) :
    IsContent (nodeContent kind message?) where
  ne_nil := by simp [nodeContent, kind.label_ne_nil]
  head := by
    unfold nodeContent
    rw [List.head?_append_of_ne_nil _ kind.label_ne_nil]
    intro space
    have alpha := kind.isAlpha_of_mem_label ' ' (List.mem_of_head? space)
    exact absurd alpha (by decide)
  oneLine := by
    have label : '\n' ∉ kind.label.toList := by
      intro mem
      exact absurd (kind.isAlpha_of_mem_label _ mem) (by decide)
    cases message? with
    | none => simpa [nodeContent] using label
    | some message => simp [nodeContent, label, not_mem_quote]

/-- What is shown of a node tells its kind and its message. -/
theorem nodeContent_inj {kind kind' : NodeKind} {message? message?' : Option String}
    (same : nodeContent kind message? = nodeContent kind' message?') :
    kind = kind' ∧ message? = message?' := by
  have space (kind : NodeKind) : ' ' ∉ kind.label.toList := by
    intro mem
    exact absurd (kind.isAlpha_of_mem_label _ mem) (by decide)
  cases message? with
  | none =>
      cases message?' with
      | none =>
          simp only [nodeContent, List.append_nil, String.toList_inj] at same
          exact ⟨NodeKind.label_inj same, rfl⟩
      | some message =>
          refine absurd ?_ (space kind)
          simp only [nodeContent, List.append_nil] at same
          simp [same]
  | some message =>
      cases message?' with
      | none =>
          refine absurd ?_ (space kind')
          simp only [nodeContent, List.append_nil] at same
          simp [← same]
      | some message' =>
          obtain ⟨label, quoted⟩ := eq_of_append_stop (space kind) (space kind') same
          have text := String.toList_inj.1 (quote_inj quoted)
          exact ⟨NodeKind.label_inj (String.toList_inj.1 label), by rw [text]⟩

end Tree

namespace Shape

theorem isContent_pieceContent (piece : Layout.Piece) : Tree.IsContent (pieceContent piece) := by
  unfold pieceContent
  split
  · rename_i layout
    refine ⟨by simp, by simp, ?_⟩
    have name : '\n' ∉ piece.1.name.toList := by
      cases kind : piece.1 <;> simp [kind, Kind.isLayout] at layout <;> decide
    simp [name]
  · refine ⟨by simp [Text.quote], by simp [Text.quote], not_mem_quote _⟩

/-- What is shown of a node is never what is shown of a token. -/
theorem pieceContent_ne_nodeContent (piece : Layout.Piece) (kind : NodeKind) (message? : Option String) :
    pieceContent piece ≠ Tree.nodeContent kind message? := by
  intro same
  have heads := congrArg List.head? same
  unfold Tree.nodeContent at heads
  rw [List.head?_append_of_ne_nil _ kind.label_ne_nil] at heads
  have alpha (c : Char) (is : (pieceContent piece).head? = some c) : c.isAlpha = true :=
    kind.isAlpha_of_mem_label c (List.mem_of_head? (heads ▸ is))
  unfold pieceContent at alpha
  split at alpha
  · exact absurd (alpha '<' rfl) (by decide)
  · exact absurd (alpha '"' rfl) (by decide)

end Shape

/-! ## What an outline leaves -/

/-- What an outline leaves of a shape: of a token the text, and the kind if it is layout. -/
inductive Sketch where
  | token (layout? : Option Kind) (body : List Char)
  | node (kind : NodeKind) (message? : Option String) (children : List Sketch)

namespace Shape

/-- What an outline leaves of a piece. -/
def sketchPiece (piece : Layout.Piece) : Sketch :=
  .token (if piece.1.isLayout then some piece.1 else none) piece.2

mutual

/-- What an outline leaves of a shape. -/
def sketch : Shape → Sketch
  | token piece => sketchPiece piece
  | node kind message? children => .node kind message? (sketchAll children)

/-- What an outline leaves of several shapes. -/
def sketchAll : List Shape → List Sketch
  | [] => []
  | shape :: shapes => sketch shape :: sketchAll shapes

end

mutual

/-- The lines of the outline of a shape at some level. -/
def lines (depth : Nat) : Shape → List (Nat × List Char)
  | token piece => [(depth, pieceContent piece)]
  | node kind message? children =>
    (depth, Tree.nodeContent kind message?) :: linesAll (depth + 1) children

/-- The lines of the outline of several shapes at some level. -/
def linesAll (depth : Nat) : List Shape → List (Nat × List Char)
  | [] => []
  | shape :: shapes => lines depth shape ++ linesAll depth shapes

end

mutual

theorem outline_eq_lines (depth : Nat) (shape : Shape) :
    outline depth shape = Tree.outlineLines (lines depth shape) := by
  cases shape with
  | token piece => simp [outline, lines, Tree.outlineLines]
  | node kind message? children =>
      simp [outline, lines, Tree.outlineLines, outlineAll_eq_lines (depth + 1) children]

theorem outlineAll_eq_lines (depth : Nat) (shapes : List Shape) :
    outlineAll depth shapes = Tree.outlineLines (linesAll depth shapes) := by
  cases shapes with
  | nil => rfl
  | cons shape shapes =>
      rw [outlineAll, linesAll, outline_eq_lines depth shape, outlineAll_eq_lines depth shapes]
      exact List.flatMap_append.symm

end

mutual

theorem isContent_of_mem_lines (depth : Nat) (shape : Shape) :
    ∀ line ∈ lines depth shape, Tree.IsContent line.2 := by
  cases shape with
  | token piece => simpa [lines] using isContent_pieceContent piece
  | node kind message? children =>
      rw [lines, List.forall_mem_cons]
      exact ⟨Tree.isContent_nodeContent kind message?, isContent_of_mem_linesAll (depth + 1) children⟩

theorem isContent_of_mem_linesAll (depth : Nat) (shapes : List Shape) :
    ∀ line ∈ linesAll depth shapes, Tree.IsContent line.2 := by
  cases shapes with
  | nil => simp [linesAll]
  | cons shape shapes =>
      rw [linesAll, List.forall_mem_append]
      exact ⟨isContent_of_mem_lines depth shape, isContent_of_mem_linesAll depth shapes⟩

end

/-- What is shown of a token tells what an outline leaves of it. -/
theorem sketchPiece_of_pieceContent {piece other : Layout.Piece}
    (empty : piece.1.isLayout = true → piece.2 = []) (empty' : other.1.isLayout = true → other.2 = [])
    (same : pieceContent piece = pieceContent other) : sketchPiece piece = sketchPiece other := by
  unfold pieceContent at same
  unfold sketchPiece
  cases layout : piece.1.isLayout with
  | true =>
      cases layout' : other.1.isLayout with
      | true =>
          simp only [layout, layout', if_true, List.cons.injEq, true_and] at same
          have names := String.toList_inj.1 (List.append_cancel_right same)
          rw [Kind.name_inj_of_isLayout layout layout' names, empty layout, empty' layout']
      | false => simp [layout, layout', Text.quote] at same
  | false =>
      cases layout' : other.1.isLayout with
      | true => simp [layout, layout', Text.quote] at same
      | false =>
          simp only [layout, layout', Bool.false_eq_true, if_false] at same
          simp [quote_inj same]

theorem pieceContent_of_sketchPiece {piece other : Layout.Piece}
    (same : sketchPiece piece = sketchPiece other) : pieceContent piece = pieceContent other := by
  obtain ⟨layout, body⟩ := Sketch.token.inj same
  unfold pieceContent
  split at layout
  · split at layout
    · simp_all
    · cases layout
  · split at layout
    · cases layout
    · simp_all

/-- The first line of some shapes is at their level. -/
theorem exists_linesAll_cons (depth : Nat) (shape : Shape) (shapes : List Shape) :
    ∃ content below, linesAll depth (shape :: shapes) = (depth, content) :: below := by
  cases shape with
  | token piece => exact ⟨_, _, rfl⟩
  | node kind message? children => exact ⟨_, _, rfl⟩

/-- Whatever follows the lines of some shapes is not deeper than they are, and so the lines below end there. -/
theorem level_head_linesAll {depth : Nat} (shapes : List Shape) {rest : List (Nat × List Char)}
    (ends : ∀ line ∈ rest.head?, line.1 < depth) :
    ∀ line ∈ (linesAll depth shapes ++ rest).head?, line.1 < depth + 1 := by
  cases shapes with
  | nil =>
      intro line head
      exact Nat.lt_succ_of_lt (ends line head)
  | cons shape shapes =>
      obtain ⟨content, below, first⟩ := exists_linesAll_cons depth shape shapes
      simp [first]

/-- Where other lines end, none of the lines of some shapes stands. -/
theorem linesAll_cons_ne {depth : Nat} (shape : Shape) (shapes : List Shape) {rest rest' : List (Nat × List Char)}
    (ends : ∀ line ∈ rest.head?, line.1 < depth) : rest ≠ linesAll depth (shape :: shapes) ++ rest' := by
  rintro rfl
  obtain ⟨content, below, first⟩ := exists_linesAll_cons depth shape shapes
  simp [first] at ends

/-- The lines can be made into the shapes again, as far as they tell: what is below a node has the lines up to the
next one that is not deeper than the node. -/
theorem sketchAll_of_lines {depth : Nat} {shapes others : List Shape} {rest rest' : List (Nat × List Char)}
    (empty : ∀ piece ∈ leavesAll shapes, piece.1.isLayout = true → piece.2 = [])
    (empty' : ∀ piece ∈ leavesAll others, piece.1.isLayout = true → piece.2 = [])
    (ends : ∀ line ∈ rest.head?, line.1 < depth) (ends' : ∀ line ∈ rest'.head?, line.1 < depth)
    (same : linesAll depth shapes ++ rest = linesAll depth others ++ rest') :
    sketchAll shapes = sketchAll others ∧ rest = rest' := by
  match shapes, others with
  | [], [] => exact ⟨rfl, same⟩
  | [], other :: others => exact absurd same (linesAll_cons_ne other others ends)
  | shape :: shapes, [] => exact absurd same.symm (linesAll_cons_ne shape shapes ends')
  | .token piece :: shapes, .token piece' :: others =>
      simp only [leavesAll_cons, leaves_token, List.forall_mem_append, List.forall_mem_singleton] at empty empty'
      simp only [linesAll, lines, List.cons_append, List.nil_append, List.cons.injEq, Prod.mk.injEq,
        true_and] at same
      obtain ⟨content, same⟩ := same
      have here := sketchPiece_of_pieceContent empty.1 empty'.1 content
      obtain ⟨after, tail⟩ := sketchAll_of_lines empty.2 empty'.2 ends ends' same
      exact ⟨by rw [sketchAll, sketchAll, sketch, sketch, here, after], tail⟩
  | .token piece :: shapes, .node kind message? children :: others =>
      exact absurd (congrArg Prod.snd (List.cons.inj same).1) (pieceContent_ne_nodeContent piece kind message?)
  | .node kind message? children :: shapes, .token piece :: others =>
      exact absurd (congrArg Prod.snd (List.cons.inj same).1).symm
        (pieceContent_ne_nodeContent piece kind message?)
  | .node kind message? children :: shapes, .node kind' message?' children' :: others =>
      simp only [leavesAll_cons, leaves_node, List.forall_mem_append] at empty empty'
      simp only [linesAll, lines, List.cons_append, List.append_assoc, List.cons.injEq, Prod.mk.injEq,
        true_and] at same
      obtain ⟨content, same⟩ := same
      obtain ⟨rfl, rfl⟩ := Tree.nodeContent_inj content
      obtain ⟨below, same⟩ := sketchAll_of_lines empty.1 empty'.1 (level_head_linesAll shapes ends)
        (level_head_linesAll others ends') same
      obtain ⟨after, tail⟩ := sketchAll_of_lines empty.2 empty'.2 ends ends' same
      exact ⟨by rw [sketchAll, sketchAll, sketch, sketch, below, after], tail⟩
termination_by sizeOf shapes

/-- An outline shows no more of shapes than it leaves of them. -/
theorem linesAll_of_sketchAll {shapes others : List Shape} (depth : Nat)
    (same : sketchAll shapes = sketchAll others) : linesAll depth shapes = linesAll depth others := by
  match shapes, others with
  | [], [] => rfl
  | [], other :: others => simp [sketchAll] at same
  | shape :: shapes, [] => simp [sketchAll] at same
  | .token piece :: shapes, .token piece' :: others =>
      obtain ⟨here, after⟩ := List.cons.inj same
      rw [linesAll, linesAll, lines, lines, pieceContent_of_sketchPiece here, linesAll_of_sketchAll depth after]
  | .token piece :: shapes, .node kind message? children :: others =>
      cases (List.cons.inj same).1
  | .node kind message? children :: shapes, .token piece :: others =>
      cases (List.cons.inj same).1
  | .node kind message? children :: shapes, .node kind' message?' children' :: others =>
      obtain ⟨here, after⟩ := List.cons.inj same
      obtain ⟨rfl, rfl, below⟩ := Sketch.node.inj here
      rw [linesAll, linesAll, lines, lines, linesAll_of_sketchAll (depth + 1) below,
        linesAll_of_sketchAll depth after]
termination_by sizeOf shapes

end Shape

namespace Tree

/-- The tokens of the shape of a tree are tokens of the tree. -/
theorem exists_of_mem_leavesAll_shape {tree : Tree} {piece : Layout.Piece}
    (mem : piece ∈ Shape.leavesAll tree.shape) : ∃ token ∈ tree.leaves, token.piece = piece := by
  rw [leavesAll_shape] at mem
  obtain ⟨token, code, same⟩ := List.mem_map.1 mem
  exact ⟨token, (List.mem_filter.1 code).1, same⟩

/-- What an outline leaves of a tree: neither trivia nor places, and of tokens that are not layout no kinds. -/
def sketch (tree : Tree) : List Sketch := Shape.sketchAll tree.shape

/-- Layout takes no room in the text, so two trees have the same outline exactly if they are the same apart from
what an outline leaves out. -/
theorem outline_eq_iff {tree other : Tree}
    (empty : ∀ token ∈ tree.leaves, token.kind.isLayout = true → token.body = [])
    (empty' : ∀ token ∈ other.leaves, token.kind.isLayout = true → token.body = []) :
    tree.outline = other.outline ↔ tree.sketch = other.sketch := by
  rw [outline_eq, outline_eq, Shape.outlineAll_eq_lines, Shape.outlineAll_eq_lines]
  constructor
  · intro same
    have lines := outlineLines_inj (Shape.isContent_of_mem_linesAll 0 tree.shape)
      (Shape.isContent_of_mem_linesAll 0 other.shape) same
    have roomless {tree : Tree} (empty : ∀ token ∈ tree.leaves, token.kind.isLayout = true → token.body = []) :
        ∀ piece ∈ Shape.leavesAll tree.shape, piece.1.isLayout = true → piece.2 = [] := by
      intro piece mem layout
      obtain ⟨token, leaf, rfl⟩ := exists_of_mem_leavesAll_shape mem
      exact empty token leaf layout
    have same : Shape.linesAll 0 tree.shape ++ [] = Shape.linesAll 0 other.shape ++ [] := by rw [lines]
    exact (Shape.sketchAll_of_lines (roomless empty) (roomless empty') (by simp) (by simp) same).1
  · intro same
    rw [Shape.linesAll_of_sketchAll 0 same]

/-- A text that looks like layout or like a further line is told from these, and a comment, a place or the kind of
a name is not seen. -/
theorem outline_lookalikes :
    let token (kind : Kind) (body : List Char) (offset : Nat) : Tree :=
      leaf ⟨kind, .point ⟨0, offset⟩, body, offset⟩
    let statement (below : List Tree) : Tree :=
      node .error (some "a \"\n  <indent>") (.point ⟨0, 0⟩) below
    let tree := statement [token .identifier ['a', '\n', ' '] 0, token .indent [] 3]
    let other := statement [token .comment ['#'] 0, token .string ['a', '\n', ' '] 1, token .indent [] 4]
    let lookalike := statement [token .identifier ['a', '\n', ' '] 0, token .invalid "<indent>".toList 3]
    (∀ part ∈ [tree, other, lookalike], ∀ token ∈ part.leaves, token.kind.isLayout = true → token.body = []) ∧
      tree.outline = other.outline ∧ tree.outline ≠ lookalike.outline := by
  intro token statement tree other lookalike
  have empty : ∀ part ∈ [tree, other, lookalike],
      ∀ token ∈ part.leaves, token.kind.isLayout = true → token.body = [] := by
    decide
  refine ⟨empty, (outline_eq_iff (empty tree (by simp)) (empty other (by simp))).2 rfl, fun same => ?_⟩
  have seen := (outline_eq_iff (empty tree (by simp)) (empty lookalike (by simp))).1 same
  simp [tree, lookalike, statement, token, sketch, shape, shapes, Shape.sketchAll, Shape.sketch,
    Shape.sketchPiece, Token.piece, Kind.isTrivia, Kind.isLayout] at seen

end Tree
end StarlarkSyntax
