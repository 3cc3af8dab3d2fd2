import StarlarkSyntax.Proofs.Layout.Kept
import StarlarkSyntax.Proofs.Lexing.Fault
import StarlarkSyntax.Proofs.Spans
/-!
# Lexical errors in the tree

An invalid token is in no shape: it is passed over, and put into an error node of its own as the tree is
made. So however often a grammar went back over it, such a node is made just once. The nodes that have been
made and those that the tokens left over still call for are the same from the beginning to the end
(`AllDressed.faults_append`), and no node of a shape is like them. In the tree they stand in the order of
the tokens, each with the message of its error (`faults_parse`).
-/

set_option autoImplicit false

namespace StarlarkSyntax

open Supply (Skip Skips)

namespace Tree

/-- Is the tree an error node with an invalid token for its only child? -/
def isFault : Tree → Bool
  | leaf _ => false
  | node kind _ _ children => holdsInvalid kind children

/-- The error node that is made for an invalid token. -/
def fault (message : String) (token : Token) : Tree :=
  .ofChildren .error (some message) [.leaf token] token.span.start

theorem span_fault (message : String) (token : Token) : (fault message token).span = token.span :=
  Span.ofCarets_eq token.span.start_le_stop

/-- The nodes for invalid tokens that a walk comes to. -/
def faultsOn (walk : List (Nat × Tree)) : List Tree :=
  (walk.map Prod.snd).filter isFault

theorem faultsOn_append (walk further : List (Nat × Tree)) :
    faultsOn (walk ++ further) = faultsOn walk ++ faultsOn further := by
  rw [faultsOn, List.map_append, List.filter_append]
  rfl

theorem faultsOn_node {kind : NodeKind} {children : List Tree}
    (other : holdsInvalid kind children = false) (depth : Nat) (message? : Option String) (span : Span) :
    faultsOn (preorderFrom depth (node kind message? span children)) =
      faultsOn (preorderOfAll (depth + 1) children) := by
  have kept : (node kind message? span children).isFault = false := other
  rw [preorderFrom_node, faultsOn, List.map_cons, List.filter_cons_of_neg (by simp [kept])]
  rfl

theorem faultsOn_preorderOfAll_append (depth : Nat) (trees more : List Tree) :
    faultsOn (preorderOfAll depth (trees ++ more)) =
      faultsOn (preorderOfAll depth trees) ++ faultsOn (preorderOfAll depth more) := by
  rw [preorderOfAll_append, faultsOn_append]

/-- Those among the nodes of a tree. -/
theorem filter_nodes (tree : Tree) : tree.nodes.filter isFault = faultsOn tree.preorder := by
  rw [nodes_eq_walk, List.filter_filter, map_snd_walk [] 0]
  refine List.filter_congr fun part _ => ?_
  cases part with
  | leaf token => rfl
  | node => exact Bool.and_true _

end Tree

open Tree (faultsOn)

namespace Supply

/-- The nodes that are still to be made for invalid tokens. -/
def faults : List Token → List String → List Tree
  | [], _ => []
  | token :: tokens, messages =>
    if token.kind = .invalid then
      .fault (messages.headD "invalid token") token :: faults tokens messages.tail
    else faults tokens messages

variable {supply middle after : Supply} {tree : Tree} {skipped : List Tree}

theorem faults_of_ne {token : Token} (valid : token.kind ≠ .invalid) (tokens : List Token)
    (messages : List String) : faults (token :: tokens) messages = faults tokens messages :=
  if_neg valid

/-- What is passed over makes the node that it calls for. -/
theorem Skip.faults_append (skip : Skip supply tree middle) (depth : Nat) :
    faultsOn (Tree.preorderFrom depth tree) ++ faults middle.tokens middle.messages =
      faults supply.tokens supply.messages := by
  cases skip with
  | @trivia token _ _ trivia =>
      have valid : token.kind ≠ .invalid := by
        intro invalid
        rw [invalid] at trivia
        contradiction
      rw [faults_of_ne valid, Tree.preorderFrom_leaf]
      rfl
  | @invalid token tokens messages invalid =>
      have fault : (Tree.fault (messages.headD "invalid token") token).isFault = true := by
        simp [Tree.fault, Tree.ofChildren, Tree.isFault, Tree.holdsInvalid, invalid]
      rw [faults, if_pos invalid, Tree.ofChildren, Tree.preorderFrom_node, Tree.preorderOfAll_cons,
        Tree.preorderFrom_leaf, Tree.preorderOfAll_nil]
      exact congrArg (· ++ _) (List.filter_cons_of_pos fault)

theorem Skips.faults_append (skips : Skips supply skipped after) (depth : Nat) :
    faultsOn (Tree.preorderOfAll depth skipped) ++ faults after.tokens after.messages =
      faults supply.tokens supply.messages := by
  induction skips with
  | done =>
      rw [Tree.preorderOfAll_nil]
      rfl
  | more skip _ ih =>
      rw [Tree.preorderOfAll_cons, Tree.faultsOn_append, List.append_assoc, ih, skip.faults_append]

/-- The nodes that are called for are those for the invalid tokens, with the messages in their order. -/
theorem faults_eq (tokens : List Token) (messages : List String)
    (same : messages.length = (tokens.filter (·.kind = .invalid)).length) :
    faults tokens messages =
      (messages.zip (tokens.filter (·.kind = .invalid))).map fun (message, token) =>
        .fault message token := by
  induction tokens generalizing messages with
  | nil =>
      rw [List.filter_nil, List.zip_nil_right]
      rfl
  | cons token tokens ih =>
      by_cases invalid : token.kind = .invalid
      · rw [List.filter_cons_of_pos (by simpa using invalid)] at same ⊢
        cases messages with
        | nil => cases same
        | cons message messages =>
            rw [faults, if_pos invalid, List.zip_cons_cons, List.map_cons]
            exact congrArg (_ :: ·) (ih messages (Nat.succ.inj same))
      · rw [List.filter_cons_of_neg (by simpa using invalid)] at same ⊢
        rw [faults_of_ne invalid, ih messages same]

end Supply

section Dressed

variable {stop : Caret}

mutual

theorem Dressed.faults_append (shape : Shape) {supply after : Supply} {tree : Tree}
    (depth : Nat) (ready : supply.Ready) (dressed : Dressed stop supply shape tree after) :
    faultsOn (Tree.preorderFrom depth tree) ++ Supply.faults after.tokens after.messages =
      Supply.faults supply.tokens supply.messages := by
  have kept := (dressed.trim _ ready).2.1
  cases dressed with
  | @token token _ _ significant =>
      have valid : token.kind ≠ .invalid := by
        intro invalid
        rw [invalid] at significant
        contradiction
      rw [Supply.faults_of_ne valid, Tree.preorderFrom_leaf]
      rfl
  | node inside =>
      rw [Tree.ofChildren, Tree.faultsOn_node kept]
      exact AllDressed.faults_append _ _ inside

/-- The nodes for invalid tokens among the trees of shapes, and those that are still to be made, are those
that were to be made before. -/
theorem AllDressed.faults_append (shapes : List Shape) {supply after : Supply}
    {trees : List Tree} (depth : Nat) (dressed : AllDressed stop supply shapes trees after) :
    faultsOn (Tree.preorderOfAll depth trees) ++ Supply.faults after.tokens after.messages =
      Supply.faults supply.tokens supply.messages := by
  cases dressed with
  | nil =>
      rw [Tree.preorderOfAll_nil]
      rfl
  | cons skips ready dressed rest =>
      rw [Tree.faultsOn_preorderOfAll_append, Tree.preorderOfAll_cons, Tree.faultsOn_append,
        List.append_assoc, List.append_assoc, AllDressed.faults_append _ depth rest,
        Dressed.faults_append _ depth ready dressed, skips.faults_append]

end

end Dressed

/-- The nodes for invalid tokens in the tree of a file are those that its tokens call for. -/
theorem Rooted.filter_nodes {lexed : Lexed} {shapes : List Shape} {tree : Tree}
    (rooted : Rooted lexed shapes tree) :
    tree.nodes.filter Tree.isFault =
      Supply.faults lexed.tokens (lexed.errors.map LexicalError.message) := by
  obtain ⟨dressed, skips, nothing⟩ := rooted
  rename_i trees skipped middle last
  have other : Tree.holdsInvalid .file (trees ++ skipped) = false := by
    unfold Tree.holdsInvalid
    split <;> rfl
  have rest := skips.faults_append 1
  rw [nothing] at rest
  have whole := dressed.faults_append _ 1
  rw [Tree.filter_nodes, Tree.preorder, Tree.ofChildren, Tree.faultsOn_node other,
    Tree.faultsOn_preorderOfAll_append]
  rw [← rest] at whole
  exact (congrArg (_ ++ ·) (List.append_nil _).symm).trans whole

/-- The errors of the lexer and the invalid tokens go together one by one, and each error lies in its
token. -/
theorem forall₂_tokenize (text : List Char) :
    List.Forall₂ LexicalError.In (tokenize text).errors
      ((tokenize text).tokens.filter (·.kind = .invalid)) := by
  have kept (tokens : List Token) : (tokens.filter Layout.isKept).filter (·.kind = .invalid) =
      tokens.filter (·.kind = .invalid) := by
    rw [List.filter_filter]
    refine List.filter_congr fun token _ => ?_
    by_cases invalid : token.kind = .invalid
    · simp [Layout.isKept, Layout.isBlank, invalid, Kind.isLayout]
    · simp [invalid]
  have same := congrArg (List.filter (·.kind = .invalid)) (filter_tokenize text)
  rw [kept, kept] at same
  rw [same]
  exact Cursor.forall₂_scan _

/-- Each lexical error of a text is in its tree once, in an error node around the invalid token, and these
nodes are in the order of the errors. -/
theorem faults_parse (text : List Char) :
    let faults := (parse text).root.nodes.filter Tree.isFault
    let invalid := (tokenize text).tokens.filter (·.kind = .invalid)
    faults.map Tree.message? = (tokenize text).errors.map (some ·.message) ∧
      faults.map Tree.children = invalid.map ([.leaf ·]) ∧
      faults.map Tree.span = invalid.map Token.span ∧
      List.Forall₂ LexicalError.In (tokenize text).errors invalid := by
  obtain ⟨made, rooted, -⟩ := exists_rooted text
  have paired := forall₂_tokenize text
  have same : ((tokenize text).errors.map LexicalError.message).length =
      ((tokenize text).tokens.filter (·.kind = .invalid)).length := by
    rw [List.length_map, paired.length_eq]
  have messages := congrArg (List.map some) (List.map_fst_zip (Nat.le_of_eq same))
  have tokens := List.map_snd_zip (Nat.le_of_eq same.symm)
  have children := congrArg (List.map ([Tree.leaf ·])) tokens
  have spans := congrArg (List.map Token.span) tokens
  rw [List.map_map] at messages children spans
  rw [List.map_map] at messages
  dsimp only
  rw [rooted.filter_nodes, Supply.faults_eq _ _ same, List.map_map, List.map_map, List.map_map]
  refine ⟨messages, children, Eq.trans (List.map_congr_left fun pair _ => ?_) spans, paired⟩
  exact Tree.span_fault pair.1 pair.2

end StarlarkSyntax
