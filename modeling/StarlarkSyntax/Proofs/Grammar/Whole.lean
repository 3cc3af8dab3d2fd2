import StarlarkSyntax.Proofs.Builder.Dress
import StarlarkSyntax.Proofs.Grammar.Reading
import StarlarkSyntax.Proofs.Total
/-!
# The tree of a whole text

A text whose tokens are the leaves of the shape of a file, and for which the rule of a file makes this
shape, is parsed into a tree of this shape (`shape_parse`). There are no errors then if the shape has
no messages (`hasErrors_parse`).
-/

set_option autoImplicit false

namespace StarlarkSyntax

open Layout (Piece)
open Grammar

/-- The stage at the start of a text. -/
def Stage.initial (lexed : Lexed) : Stage lexed where
  parser := { builder := .ofLexed lexed }
  draft := .ofLexed lexed
  held := []
  sees := ⟨{}, stands_ofLexed lexed, follows_ofLexed lexed⟩

theorem isSignificant_eq {token : Token} (valid : token.kind ≠ .invalid) :
    token.kind.isSignificant = Layout.isCode token := by
  rw [Kind.isSignificant, Layout.isCode, bne_iff_ne.2 valid, Bool.and_true]

/-- An invalid token is among the pieces of a text. -/
theorem forall_valid_of_pieces {tokens : List Token}
    (valid : ∀ piece ∈ Layout.pieces tokens, piece.1 ≠ .invalid) :
    ∀ token ∈ tokens, token.kind ≠ .invalid := by
  intro token mem invalid
  refine valid _ (List.mem_map.2 ⟨token, List.mem_filter.2 ⟨mem, ?_⟩, rfl⟩) invalid
  rw [Layout.isCode, invalid]
  rfl

/-- A grammar sees all pieces of a text without invalid tokens. -/
theorem Stage.rest_initial {lexed : Lexed}
    (valid : ∀ piece ∈ Layout.pieces lexed.tokens, piece.1 ≠ .invalid) :
    (Stage.initial lexed).rest = Layout.pieces lexed.tokens := by
  show (lexed.tokens.filter (·.kind.isSignificant)).map Token.piece =
    (lexed.tokens.filter Layout.isCode).map Token.piece
  exact congrArg (List.map _) (List.filter_congr fun token mem =>
    isSignificant_eq (forall_valid_of_pieces valid token mem))

/-- A single node that is no error was made with a marker. -/
theorem Page.items_of_node {items : List Item} {kind : NodeKind} {message? : Option String}
    {shapes : List Shape} (proper : kind ≠ .error)
    (same : Bare.shapes (items.map Item.bare) = [.node kind message? shapes]) :
    ∃ marker children, items = [.made marker kind message? children] ∧ Bare.shapes children = shapes := by
  match items with
  | [] => cases same
  | [item] =>
      cases item with
      | passed token => cases same
      | missing message =>
          cases same
          contradiction
      | made marker kind message? children =>
          cases same
          exact ⟨marker, children, rfl, rfl⟩
  | first :: second :: others =>
      have := congrArg List.length same
      simp [Bare.shapes] at this

/-- A page with one node on it, which is no error, gives the tree of this node. -/
theorem Page.shape_tree {page : Page} {kind : NodeKind} {message? : Option String}
    {children : List Shape} (rest : page.rest = []) (proper : kind ≠ .error)
    (items : Bare.shapes (page.items.map Item.bare) = [.node kind message? children]) :
    page.tree.shape = .node kind message? children := by
  obtain ⟨marker, children, single, rfl⟩ := items_of_node proper items
  rw [tree, single, rest]
  simp [root, proper, Bare.shape]

/-- The tree that a builder makes of a whole text. -/
theorem Stage.rooted {lexed : Lexed} {after : Stage lexed} {shapes : List Shape}
    (adds : Adds (.initial lexed) [.node .file none shapes] after) (left : after.rest = []) :
    Rooted lexed shapes after.parser.builder.finish := by
  obtain ⟨plan, stands, follows⟩ := after.sees
  obtain ⟨more, items, made⟩ := adds.items
  obtain ⟨marker, children, rfl, rfl⟩ := Page.items_of_node (by decide) made
  have tree := stands.finish_eq follows adds.frames items
  dsimp only at tree
  rw [tree]
  have seen : (Supply.ofLexed lexed).seen = Shape.leavesAll [.node .file none _] ++ after.rest :=
    adds.rest
  rw [left] at seen
  exact rooted_put (by simpa using seen)

/-- What is parsed is the tree of the builder after a file. -/
theorem parse_of_file {text : List Char} {parser : Parser}
    (ran : file { builder := .ofLexed (tokenize text) } = some ((), parser)) :
    parse text = { root := parser.builder.finish, tokens := (tokenize text).tokens } := by
  rw [parse, parse?]
  simp only [StateT.run]
  rw [ran]
  rfl

section

variable {text : List Char} {children : List Shape}

/-- Nothing is left when the rule of a file has passed all pieces of a text. -/
theorem Stage.rest_eq_nil {after : Stage (tokenize text)}
    (pieces : Layout.pieces (tokenize text).tokens = Shape.leavesAll children)
    (valid : ∀ piece ∈ Shape.leavesAll children, piece.1 ≠ .invalid)
    (adds : Adds (Stage.initial (tokenize text)) [.node .file none children] after) :
    after.rest = [] :=
  adds.left (by
    rw [Stage.rest_initial (pieces ▸ valid), pieces, List.append_nil, Shape.leavesAll_cons,
      Shape.leaves_node, Shape.leavesAll_nil, List.append_nil])

/-- A text of which the rule of a file makes a shape is parsed into the tree that the builder makes of
it. -/
theorem rooted_parse (pieces : Layout.pieces (tokenize text).tokens = Shape.leavesAll children)
    (valid : ∀ piece ∈ Shape.leavesAll children, piece.1 ≠ .invalid)
    (gives : Gives file (Stage.initial (tokenize text)) () [.node .file none children]) :
    Rooted (tokenize text) children (parse text).root := by
  obtain ⟨_, after, ran, -, adds⟩ := gives
  rw [parse_of_file ran]
  exact Stage.rooted adds (Stage.rest_eq_nil pieces valid adds)

/-- A text of which the rule of a file makes a shape is parsed into a tree of this shape. -/
theorem shape_parse (pieces : Layout.pieces (tokenize text).tokens = Shape.leavesAll children)
    (valid : ∀ piece ∈ Shape.leavesAll children, piece.1 ≠ .invalid)
    (gives : Gives file (Stage.initial (tokenize text)) () [.node .file none children]) :
    (parse text).root.shape = [.node .file none children] := by
  obtain ⟨_, after, ran, -, adds⟩ := gives
  have rest := Stage.rest_eq_nil pieces valid adds
  rw [← pieces] at valid
  have parsed := parse_of_file ran
  obtain ⟨plan, stands, follows⟩ := after.sees
  have bare := stands.bare_finish follows adds.frames
  have leaves : after.parser.builder.finish.leaves = (tokenize text).tokens :=
    (Builder.leaves_finish _).trans stands.reads.tokens
  rw [parsed]
  obtain ⟨more, items, shapes⟩ := adds.items
  rw [Tree.shape_eq _ ?_, bare]
  · refine congrArg (· :: []) (Page.shape_tree (List.map_eq_nil_iff.1 rest) (by decide) ?_)
    rw [items]
    exact shapes
  · rw [leaves]
    exact forall_valid_of_pieces valid

/-- There are no errors in a tree whose shape has no messages. -/
theorem hasErrors_parse (shape : (parse text).root.shape = [.node .file none children])
    (clean : Shape.allClean children = true) : (parse text).hasErrors = false := by
  have none : (parse text).root.errors = [] := Tree.errors_eq_nil (by simp [shape, clean])
  rw [Parse.hasErrors, Parse.errors, none]
  rfl

end

end StarlarkSyntax
