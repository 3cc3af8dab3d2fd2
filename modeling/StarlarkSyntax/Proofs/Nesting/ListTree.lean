import StarlarkSyntax.Proofs.Nesting.Skip
import StarlarkSyntax.Proofs.Print.Chain
import StarlarkSyntax.Proofs.Print.Display
import StarlarkSyntax.Proofs.Print.Full
/-!
# Lists of lists

A `ListTree` is written with nothing but brackets and commas. It is read with some room for nesting: with
none, the whole list is an error, and otherwise its elements are read with less room (`ListTree.shape`).
So the errors in there are the lists that come right after the last that there is room for, on each way
down (`ListTree.overDeep`). Each list takes two levels of nesting, one for itself and one for the
expression that it is (`readsWhere_shape`).
-/

set_option autoImplicit false

namespace StarlarkSyntax

open Layout (Piece)
open Stage (Inside Adds)
open Grammar

/-- A list all elements of which are such lists in turn. There may be a comma after the last of them. -/
inductive ListTree where
  | empty
  | filled (first : ListTree) (others : List ListTree) (comma : Bool)

namespace ListTree

variable {tree : ListTree} {room : Nat}

/-! ## What is written, and what it is read as -/

/-- A list of some elements. -/
def display (elements : List Shape) (comma : Bool) : Shape :=
  .node .listLiteralExpression none
    (.ofKind lbracket :: Shape.withCommas elements ++ lastComma comma ++ [.ofKind rbracket])

mutual

/-- The shape of a list, if nothing is nested too deeply. -/
def whole : ListTree → Shape
  | empty => display [] false
  | filled first others comma => display (whole first :: wholes others) comma

/-- The shapes of several lists, if nothing is nested too deeply. -/
def wholes : List ListTree → List Shape
  | [] => []
  | tree :: trees => whole tree :: wholes trees

end

/-- What a list is written with. -/
def pieces (tree : ListTree) : List Piece := tree.whole.leaves

/-- The elements of a list. -/
def elements : ListTree → List ListTree
  | empty => []
  | filled first others _ => first :: others

/-- Is there a comma after the last element? -/
def comma : ListTree → Bool
  | empty => false
  | filled _ _ comma => comma

/-- The shape of a list, if no more than so many lists may be nested in one another. A list too many is
an error, and so is everything inside it. -/
def shape : Nat → ListTree → Shape
  | 0, tree => .node .error (some tooDeep) (tree.pieces.map .token)
  | room + 1, tree => display (tree.elements.map (shape room)) tree.comma

/-- Lists with commas between them, each with the pieces before it. -/
def placed (before : List Piece) : List ListTree → List (List Piece × ListTree)
  | [] => []
  | tree :: trees => (before, tree) :: placed (before ++ tree.pieces ++ [spelled .comma]) trees

/-- The lists that are the first on their way down for which there is no room, in the order in which they
are written, each with the pieces before it. -/
def overDeep : Nat → List Piece → ListTree → List (List Piece × ListTree)
  | 0, before, tree => [(before, tree)]
  | room + 1, before, tree =>
    (placed (before ++ [spelled lbracket]) tree.elements).flatMap fun part => overDeep room part.1 part.2

theorem whole_eq (tree : ListTree) : tree.whole = display (tree.elements.map whole) tree.comma := by
  have wholes (trees : List ListTree) : wholes trees = trees.map whole := by
    induction trees with
    | nil => rfl
    | cons tree trees ih => rw [wholes, ih, List.map_cons]
  cases tree with
  | empty => rfl
  | filled first others comma =>
      exact congrArg (fun others => display (whole first :: others) comma) (wholes others)

theorem exists_placed {trees : List ListTree} {tree : ListTree} (mem : tree ∈ trees)
    (before : List Piece) : ∃ before', (before', tree) ∈ placed before trees := by
  induction trees generalizing before with
  | nil => cases mem
  | cons other trees ih =>
      rcases List.mem_cons.1 mem with rfl | mem
      · exact ⟨before, List.mem_cons_self⟩
      · obtain ⟨before', mem⟩ := ih mem (before ++ other.pieces ++ [spelled .comma])
        exact ⟨before', List.mem_cons_of_mem _ mem⟩

/-- A list is read as a whole if there is room for all lists in it. -/
theorem shape_eq_whole {room : Nat} {before : List Piece} {tree : ListTree}
    (fits : overDeep room before tree = []) : tree.shape room = tree.whole := by
  induction room generalizing before tree with
  | zero => cases fits
  | succ room ih =>
      rw [shape, whole_eq]
      refine congrArg (display · tree.comma) (List.map_congr_left fun element mem => ?_)
      obtain ⟨before', mem⟩ := exists_placed mem (before ++ [spelled lbracket])
      exact ih (List.flatMap_eq_nil_iff.1 fits _ mem)

/-- What holds of a list whenever it holds of its elements holds of every list. -/
theorem induction {motive : ListTree → Prop}
    (step : ∀ tree, (∀ element ∈ tree.elements, motive element) → motive tree) (tree : ListTree) :
    motive tree := by
  cases tree with
  | empty => exact step _ nofun
  | filled first others comma => exact step _ fun element mem => induction step element
termination_by sizeOf tree
decreasing_by
  rcases List.mem_cons.1 mem with rfl | mem
  · rw [filled.sizeOf_spec]
    omega
  · have := List.sizeOf_lt_of_mem mem
    rw [filled.sizeOf_spec]
    omega

/-! ## Brackets -/

theorem leaves_display (elements : List Shape) (comma : Bool) : (display elements comma).leaves =
    spelled lbracket :: (Shape.leavesAll (Shape.withCommas elements ++ lastComma comma) ++
      [spelled rbracket]) := by
  simp [display]

/-- Whatever is cut off stays in the shape. -/
@[simp] theorem leaves_shape (room : Nat) (tree : ListTree) : (tree.shape room).leaves = tree.pieces := by
  induction room generalizing tree with
  | zero => simp [shape]
  | succ room ih =>
      rw [shape, pieces, whole_eq, leaves_display, leaves_display, Shape.leavesAll_append,
        Shape.leavesAll_append, Shape.leavesAll_withCommas_congr fun tree _ => ih tree]

theorem balanced_inside {shapes : List Shape} (balanced : ∀ shape ∈ shapes, Shape.Balanced [shape])
    (comma : Bool) : Shape.Balanced (Shape.withCommas shapes ++ lastComma comma) := by
  have separator : Shape.Balanced [Shape.ofKind .comma] := (Shape.Sealed.token rfl).toBalanced
  have others (shapes : List Shape) (balanced : ∀ shape ∈ shapes, Shape.Balanced [shape]) :
      Shape.Balanced (shapes.flatMap fun shape => [.ofKind .comma, shape]) := by
    induction shapes with
    | nil => exact .nil
    | cons shape shapes ih =>
        obtain ⟨first, rest⟩ := List.forall_mem_cons.1 balanced
        exact (separator.append first).append (ih rest)
  refine Shape.Balanced.append ?_ ?_
  · cases shapes with
    | nil => exact .nil
    | cons shape shapes =>
        obtain ⟨first, rest⟩ := List.forall_mem_cons.1 balanced
        exact first.append (others shapes rest)
  · cases comma with
    | false => exact .nil
    | true => exact separator

theorem balanced_whole (tree : ListTree) : Shape.Balanced [tree.whole] := by
  induction tree using ListTree.induction with
  | step tree ih =>
      rw [whole_eq]
      exact (Shape.sealed_enclosed (balanced_inside (List.forall_mem_map.2 ih) _)).node.toBalanced

/-- A list ends with the bracket that closes its first one. -/
theorem bracketed_pieces (tree : ListTree) : Bracketed tree.pieces := by
  rw [pieces, whole_eq, leaves_display]
  exact .intro rfl rfl (balanced_inside (List.forall_mem_map.2 fun tree _ => balanced_whole tree) _)

theorem exists_pieces (tree : ListTree) :
    ∃ inside, tree.pieces = spelled lbracket :: (inside ++ [spelled rbracket]) := by
  rw [pieces, whole_eq, leaves_display]
  exact ⟨_, rfl⟩

theorem starts_shape (room : Nat) (tree : ListTree) : Starts 14 (tree.shape room).leaves := by
  obtain ⟨inside, written⟩ := tree.exists_pieces
  rw [leaves_shape]
  exact ⟨_, _, written, Nat.le_refl _, nofun⟩

end ListTree

/-! ## Reading lists -/

namespace Grammar

variable {nested : Nested} {holds : Place → Prop} {shape : Shape}

/-- Brackets and what stands in them are read as a full expression, if nothing follows that goes on
with them. -/
theorem readsWhere_conditional {delimiter : Delimiter} {more : List Piece}
    (reads : ReadsWhere holds (nested (.display delimiter false)) shape fun _ => True)
    (opening : shape.leaves = spelled (.opening delimiter) :: more) :
    ReadsWhere holds (conditional nested false) shape (Looser 1) := by
  have starts : Starts 14 shape.leaves := ⟨_, _, opening, Nat.le_refl _, nofun⟩
  have power : ReadsWhere holds (power nested false) shape (Looser 12) :=
    (reads.primary opening).member.power.weaken fun _ looser => looser.mono (by decide)
  have bitOr : ReadsWhere holds (bitOr nested false) shape (Looser 6) :=
    (power.unary (starts.mono (by decide))).leftAssociative |>.leftAssociative |>.leftAssociative
      |>.leftAssociative |>.leftAssociative |>.leftAssociative
  have comparison : ReadsWhere holds (comparison nested false) shape (Looser 5) :=
    (bitOr.starred (starts.mono (by decide)) rfl).leftAssociative
  have operation : ReadsWhere holds (operation nested false) shape (Looser 2) :=
    (comparison.negation (starts.mono (by decide))).leftAssociative.leftAssociative
  exact operation.choice.conditional (starts.mono (by decide))

/-- A level of nesting below a place. -/
theorem readsWhere_below {rule : ParseM Bool} {follows : List Piece → Prop} {levels : Nat}
    (reads : ReadsWhere (fun place => place.depth + levels = Builder.maxDepth) rule shape follows) :
    ReadsWhere (fun place => place.depth + (levels + 1) = Builder.maxDepth) (nest rule) shape follows :=
  reads.nest fun place here => by
    show place.depth + 1 ≤ _ ∧ place.depth + 1 + levels = _
    omega

end Grammar

namespace ListTree

/-- The elements are read with less room, where there is room for the list itself. -/
theorem gives_shape {room : Nat} {holds : Place → Prop} {nested : Nested} {lexed : Lexed}
    {stage : Stage lexed} {left : List Piece} (tree : ListTree)
    (elements : ∀ tree : ListTree, IsElement holds (test nested false) (tree.shape room))
    (rest : stage.rest = (tree.shape (room + 1)).leaves ++ left) (here : holds stage.place)
    (deep : stage.place.depth ≤ Builder.maxDepth) :
    Gives (Grammar.display nested .bracket false) stage () [tree.shape (room + 1)] := by
  cases tree with
  | empty => exact makes_emptyList stage left rest (show stage.place.depth + 0 ≤ _ from deep)
  | filled first others comma =>
      refine gives_list (fun element mem => ?_) comma rest here
      obtain ⟨tree, -, rfl⟩ := List.mem_map.1 (List.map_cons ▸ mem)
      exact elements tree

/-- A list is read with the room that there is for it. -/
theorem readsWhere_shape (room : Nat) (tree : ListTree) :
    ReadsWhere (fun place => place.depth + 2 * room = Builder.maxDepth)
      (test (nestedFor (2 * room)) false) (tree.shape room) (Looser 1) := by
  induction room generalizing tree with
  | zero => exact (readsWhere_full (bracketed_pieces tree) unending).weaken fun _ _ => trivial
  | succ room ih =>
      have elements (tree : ListTree) :
          IsElement (fun place => place.depth + 2 * room = Builder.maxDepth)
            (test (nestedFor (2 * room)) false) (tree.shape room) :=
        ⟨ih tree, (starts_shape room tree).mono (by decide)⟩
      have inside : ReadsWhere (fun place => place.depth + 2 * room = Builder.maxDepth)
          (production (nestedFor (2 * room)) (.display .bracket false)) (tree.shape (room + 1))
          fun _ => True := fun _ stage left rest _ here =>
        (gives_shape tree elements rest here (by omega)).andThen fun _ adds => reaches_pure ⟨rfl, adds⟩
      obtain ⟨between, written⟩ := tree.exists_pieces
      rw [← leaves_shape (room + 1)] at written
      exact readsWhere_below (readsWhere_conditional (readsWhere_below inside) written)

end ListTree
end StarlarkSyntax
