import StarlarkSyntax.Proofs.Builder.Fill
import StarlarkSyntax.Proofs.Twin.File
/-!
# What the tree of a text is made of

Apart from places and trivia, two things go into the tree of a text: the shapes that the grammar makes of
the pieces it can see, and the stock of all pieces and messages, from which the invalid pieces come back
(`Rooted.shape`). So two texts with the same pieces and messages have trees of the same shape
(`shape_congr`).
-/

set_option autoImplicit false

namespace StarlarkSyntax

open Layout (Piece)
open Supply (Skips)

/-! ## The root -/

/-- Is the shape one of a node? -/
def Shape.isNode : Shape → Bool
  | token _ => false
  | node .. => true

/-- What is in the node of a file: some shapes with the invalid pieces in them, and all that are left. -/
def Stock.fillFile (stock : Stock) (shapes : List Shape) : List Shape :=
  (stock.fillAll shapes).1 ++ (stock.fillAll shapes).2.passed

/-- What a text has apart from trivia and places. -/
def Lexed.stock (lexed : Lexed) : Stock where
  pieces := Layout.pieces lexed.tokens
  messages := lexed.errors.map LexicalError.message

/-- A grammar sees the pieces that are not invalid. -/
theorem Stage.rest_initial_eq (lexed : Lexed) :
    (Stage.initial lexed).rest = visible lexed.stock.pieces :=
  (Supply.ofLexed lexed).seen_eq

theorem Tree.shapes_filter_isNode (trees : List Tree) :
    shapes (trees.filter isNode) = (shapes trees).filter Shape.isNode := by
  induction trees with
  | nil => rfl
  | cons tree trees ih =>
      rw [shapes, List.filter_append, ← ih]
      cases tree with
      | leaf token =>
          rw [List.filter_cons_of_neg (by simp [isNode]), shape]
          split <;> rfl
      | node => rfl

namespace Rooted

variable {lexed : Lexed} {made : List Shape} {tree : Tree}

theorem shape (rooted : Rooted lexed made tree) :
    tree.shape = [.node .file none (lexed.stock.fillFile made)] := by
  cases rooted with
  | @file _ _ _ last dressed skips nothing =>
      obtain ⟨filled, left⟩ := dressed.shapes_fillAll
      have ready : last.Ready := by
        intro token first
        rw [nothing] at first
        cases first
      rw [Tree.ofChildren, Tree.shape, Tree.shapes_append, filled, (skips.shapes_eq ready).1, left]
      rfl

theorem shapes_childNodes (rooted : Rooted lexed made tree) :
    Tree.shapes tree.childNodes = (lexed.stock.fillFile made).filter Shape.isNode := by
  have same := rooted.shape
  cases rooted
  rw [Tree.ofChildren, Tree.shape] at same
  obtain ⟨-, -, same⟩ := Shape.node.inj (List.cons.inj same).1
  rw [← same]
  exact Tree.shapes_filter_isNode _

end Rooted

/-! ## Texts with the same pieces -/

/-- Of the same visible pieces the grammar makes the same shapes. -/
theorem exists_rooted_both {text text' : List Char}
    (same : visible (tokenize text).stock.pieces = visible (tokenize text').stock.pieces) :
    ∃ made, Rooted (tokenize text) made (parse text).root ∧
      Rooted (tokenize text') made (parse text').root := by
  let start : Twin { left := tokenize text, right := tokenize text' } :=
    { left := .initial _
      right := .initial _
      ahead := visible (tokenize text).stock.pieces
      leftRest := by rw [List.append_nil, Stage.rest_initial_eq]
      rightRest := by rw [List.append_nil, Stage.rest_initial_eq, same]
      together := rfl }
  obtain ⟨_, parser, ran, -⟩ := Grammar.ends_file start.left.since rfl
  have top : start.place.depth = 0 := rfl
  have outside : start.place.blocks = 0 := rfl
  have settled : start.place.strayIndents = 0 := rfl
  obtain ⟨_, after, rfl, ran', made, since, -, nothing⟩ :=
    Grammar.abreast_file ⟨rfl, rfl⟩ top outside settled _ _ ran
  have left : after.left.rest = [] := by rw [after.leftRest, nothing]; rfl
  have right : after.right.rest = [] := by rw [after.rightRest, nothing]; rfl
  have tree := Stage.rooted since.left left
  have tree' := Stage.rooted since.right right
  rw [parse_of_file ran, parse_of_file ran']
  exact ⟨made, tree, tree'⟩

/-- Texts with the same pieces and the same messages have trees of the same shape. -/
theorem shape_congr {text text' : List Char} (same : (tokenize text).stock = (tokenize text').stock) :
    (parse text).root.shape = (parse text').root.shape := by
  obtain ⟨made, rooted, rooted'⟩ := exists_rooted_both (congrArg (visible ·.pieces) same)
  rw [rooted.shape, rooted'.shape, same]

end StarlarkSyntax
