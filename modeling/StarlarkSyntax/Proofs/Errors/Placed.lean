import StarlarkSyntax.Proofs.Grammar.Whole
import StarlarkSyntax.Proofs.Layout.Tiling
/-!
# Which tokens an error is about

Where no token is invalid, the errors of a tree are the nodes with a message in its shape, in the same
order (`Rooted.forall₂_errors`). Each stands at the tokens that are the leaves of its node, after those
that come before it in the shape. If its children are nothing but tokens, then it runs from the first of
them to the last: white space and comments are inside it only if they are between its tokens.
-/

set_option autoImplicit false

namespace StarlarkSyntax

open Layout (Piece pieces isCode)
open Token (Tiles)
open Supply (Skip Skips)

/-! ## Nodes with messages -/

namespace Shape

/-- A node with a message, and the pieces before it. -/
structure Flaw where
  before : List Piece
  message : String
  children : List Shape

mutual

/-- The nodes with messages in a shape, each before those inside it. -/
def flaws (before : List Piece) : Shape → List Flaw
  | token _ => []
  | node _ message? children =>
    (message?.map fun message => ⟨before, message, children⟩).toList ++ flawsAll before children

/-- The nodes with messages in several shapes. -/
def flawsAll (before : List Piece) : List Shape → List Flaw
  | [] => []
  | shape :: shapes => flaws before shape ++ flawsAll (before ++ shape.leaves) shapes

end

theorem flawsAll_append (before : List Piece) (s t : List Shape) :
    flawsAll before (s ++ t) = flawsAll before s ++ flawsAll (before ++ leavesAll s) t := by
  induction s generalizing before with
  | nil => rw [List.nil_append, leavesAll_nil, List.append_nil, flawsAll, List.nil_append]
  | cons shape s ih =>
      rw [List.cons_append, flawsAll, flawsAll, ih, leavesAll_cons, List.append_assoc, List.append_assoc]

@[simp] theorem flawsAll_map_token (before tokens : List Piece) :
    flawsAll before (tokens.map token) = [] := by
  induction tokens generalizing before with
  | nil => rfl
  | cons piece tokens ih => rw [List.map_cons, flawsAll, ih, flaws, List.nil_append]

mutual

theorem flaws_of_clean (shape : Shape) (clean : shape.isClean = true) (before : List Piece) :
    shape.flaws before = [] := by
  cases shape with
  | token piece => rfl
  | node kind message? children =>
      rw [isClean_node, Bool.and_eq_true, Option.isNone_iff_eq_none] at clean
      rw [flaws, clean.1, flawsAll_of_clean children clean.2]
      rfl

/-- Clean shapes have no messages. -/
theorem flawsAll_of_clean (shapes : List Shape) (clean : allClean shapes = true)
    (before : List Piece) : flawsAll before shapes = [] := by
  cases shapes with
  | nil => rfl
  | cons shape shapes =>
      rw [allClean_cons, Bool.and_eq_true] at clean
      rw [flawsAll, flaws_of_clean shape clean.1, flawsAll_of_clean shapes clean.2, List.append_nil]

end

/-- A span is that of some tokens, the leaves of the node of a flaw: the span from the first of them to
the last, if the children of the node are tokens. -/
structure Flaw.Covers (flaw : Flaw) (front run : List Token) (span : Span) : Prop where
  before : pieces front = flaw.before
  inside : pieces run = leavesAll flaw.children
  edges : ∀ tokens : List Piece, flaw.children = tokens.map token →
    ∀ first ∈ run.head?, ∀ last ∈ run.getLast?, isCode first = true ∧ isCode last = true ∧
      span = .ofCarets first.span.start last.span.stop

/-- An error is that of a flaw, at some of the tokens. -/
def Flaw.At (tokens : List Token) (flaw : Flaw) (error : String × Span) : Prop :=
  error.1 = flaw.message ∧
    ∃ front run back, tokens = front ++ run ++ back ∧ flaw.Covers front run error.2

end Shape

open Shape (Flaw flaws flawsAll leavesAll)

/-! ## Trees without invalid tokens -/

section

variable {stop : Caret} {supply middle after : Supply} {tree : Tree} {skipped trees : List Tree}

@[simp] theorem Tree.leavesOfAll_map_leaf (tokens : List Token) :
    Tree.leavesOfAll (tokens.map .leaf) = tokens := by
  induction tokens with
  | nil => rfl
  | cons token tokens ih => rw [List.map_cons, leavesOfAll_cons, ih, leaves_leaf, List.singleton_append]

theorem Tree.filterMap_map_leaf (depth : Nat) (tokens : List Token) :
    (Tree.preorderOfAll depth (tokens.map .leaf)).filterMap Tree.message = [] := by
  induction tokens with
  | nil => rw [List.map_nil, preorderOfAll_nil, List.filterMap_nil]
  | cons token tokens ih =>
      rw [List.map_cons, preorderOfAll_cons, preorderFrom_leaf]
      exact ih

/-- What is passed over are tokens that no grammar sees. -/
theorem Supply.Skips.exists_run (skips : Skips supply skipped after)
    (valid : ∀ token ∈ supply.tokens, token.kind ≠ .invalid) :
    ∃ run : List Token, skipped = run.map .leaf ∧ supply.tokens = run ++ after.tokens ∧
      pieces run = [] := by
  induction skips with
  | done => exact ⟨[], rfl, rfl, rfl⟩
  | more skip _ ih =>
      cases skip with
      | @trivia token tokens _ trivia =>
          obtain ⟨run, rfl, whole, nothing⟩ := ih (List.forall_mem_cons.1 valid).2
          refine ⟨token :: run, rfl, congrArg (token :: ·) whole, ?_⟩
          rw [Layout.pieces_cons, if_neg (by simp [isCode, trivia]), nothing]
      | invalid invalid => exact absurd invalid (valid _ List.mem_cons_self)

theorem isCode_of_significant {token : Token} (significant : token.kind.isSignificant = true) :
    isCode token = true := by
  simp only [Kind.isSignificant, Bool.and_eq_true] at significant
  exact significant.1

mutual

theorem Dressed.leaves_eq (shape : Shape) {supply after : Supply} {tree : Tree}
    (dressed : Dressed stop supply shape tree after)
    (valid : ∀ token ∈ supply.tokens, token.kind ≠ .invalid) :
    supply.tokens = tree.leaves ++ after.tokens ∧ pieces tree.leaves = shape.leaves := by
  cases dressed with
  | @token token tokens messages significant =>
      rw [Tree.leaves_leaf]
      refine ⟨rfl, ?_⟩
      rw [Layout.pieces_cons, if_pos (isCode_of_significant significant)]
      rfl
  | node dressed =>
      rw [Tree.ofChildren, Tree.leaves_node]
      exact AllDressed.leaves_eq _ dressed valid

/-- The tokens of trees that are made of shapes are the next ones, and the shapes have those of them that
are no trivia. -/
theorem AllDressed.leaves_eq (shapes : List Shape) {supply after : Supply} {trees : List Tree}
    (dressed : AllDressed stop supply shapes trees after)
    (valid : ∀ token ∈ supply.tokens, token.kind ≠ .invalid) :
    supply.tokens = Tree.leavesOfAll trees ++ after.tokens ∧
      pieces (Tree.leavesOfAll trees) = leavesAll shapes := by
  cases dressed with
  | nil => exact ⟨rfl, rfl⟩
  | cons skips _ dressed rest =>
      obtain ⟨run, rfl, whole, nothing⟩ := skips.exists_run valid
      rw [whole] at valid
      have valid := (List.forall_mem_append.1 valid).2
      obtain ⟨whole', inside⟩ := Dressed.leaves_eq _ dressed valid
      rw [whole'] at valid
      obtain ⟨whole'', others⟩ := AllDressed.leaves_eq _ rest (List.forall_mem_append.1 valid).2
      rw [Tree.leavesOfAll_append, Tree.leavesOfAll_map_leaf, Tree.leavesOfAll_cons]
      refine ⟨?_, ?_⟩
      · rw [whole, whole', whole'', List.append_assoc, List.append_assoc]
      · rw [Layout.pieces_append, Layout.pieces_append, nothing, inside, others]
        rfl

end

/-- Trees that are made of tokens are tokens, and the last one is no trivia. -/
theorem AllDressed.exists_run {inside : List Piece}
    (dressed : AllDressed stop supply (inside.map .token) trees after)
    (valid : ∀ token ∈ supply.tokens, token.kind ≠ .invalid) :
    ∃ run : List Token, trees = run.map .leaf ∧ ∀ last ∈ run.getLast?, isCode last = true := by
  induction inside generalizing supply trees with
  | nil =>
      cases dressed
      exact ⟨[], rfl, nofun⟩
  | cons piece inside ih =>
      rw [List.map_cons] at dressed
      cases dressed with
      | cons skips _ dressed rest =>
          obtain ⟨run, rfl, whole, -⟩ := skips.exists_run valid
          rw [whole] at valid
          have valid := (List.forall_mem_append.1 valid).2
          cases dressed with
          | @token token _ _ significant =>
              obtain ⟨others, rfl, last⟩ := ih rest (List.forall_mem_cons.1 valid).2
              refine ⟨run ++ token :: others, by rw [List.map_append, List.map_cons], ?_⟩
              rw [List.getLast?_append, List.getLast?_cons]
              intro final found
              cases ends : others.getLast? with
              | none =>
                  rw [ends] at found
                  cases found
                  exact isCode_of_significant significant
              | some other =>
                  rw [ends] at found
                  cases found
                  exact last other ends

mutual

theorem Dressed.errors (shape : Shape) {supply after : Supply} {tree : Tree}
    (dressed : Dressed stop supply shape tree after) (ready : supply.Ready)
    (valid : ∀ token ∈ supply.tokens, token.kind ≠ .invalid) (depth : Nat) {tokens front : List Token}
    (whole : tokens = front ++ supply.tokens) :
    List.Forall₂ (Flaw.At tokens) (shape.flaws (pieces front))
      ((Tree.preorderFrom depth tree).filterMap Tree.message) := by
  cases dressed with
  | token =>
      rw [Tree.preorderFrom_leaf]
      exact .nil
  | @node _ _ kind message? children trees dressed =>
      have inside := AllDressed.errors _ dressed valid (depth + 1) whole
      rw [Tree.ofChildren, Tree.preorderFrom_node, List.filterMap_cons, flaws]
      cases message? with
      | none => exact inside
      | some message =>
          obtain ⟨run, same⟩ := AllDressed.leaves_eq _ dressed valid
          refine .cons ⟨rfl, front, Tree.leavesOfAll trees, after.tokens, ?_, rfl, same, ?_⟩ inside
          · rw [whole, run, List.append_assoc]
          · rintro tokens' rfl first isFirst last isLast
            obtain ⟨run', rfl, code⟩ := dressed.exists_run valid
            rw [Tree.leavesOfAll_map_leaf] at run isFirst isLast
            have next : first ∈ supply.tokens.head? := by
              rw [run, List.head?_append, Option.mem_def.1 isFirst]
              rfl
            refine ⟨isCode_of_significant (ready first next), code last isLast, ?_⟩
            simp [Tree.span, Tree.fitSpan, Option.mem_def.1 isFirst, Option.mem_def.1 isLast]

/-- The errors in trees that are made of shapes are those of the flaws of the shapes. -/
theorem AllDressed.errors (shapes : List Shape) {supply after : Supply} {trees : List Tree}
    (dressed : AllDressed stop supply shapes trees after)
    (valid : ∀ token ∈ supply.tokens, token.kind ≠ .invalid) (depth : Nat) {tokens front : List Token}
    (whole : tokens = front ++ supply.tokens) :
    List.Forall₂ (Flaw.At tokens) (flawsAll (pieces front) shapes)
      ((Tree.preorderOfAll depth trees).filterMap Tree.message) := by
  cases dressed with
  | nil =>
      rw [Tree.preorderOfAll_nil]
      exact .nil
  | @cons _ middle next _ _ _ _ _ tree skips ready dressed rest =>
      obtain ⟨run, rfl, skipped, nothing⟩ := skips.exists_run valid
      rw [skipped] at valid
      have valid := (List.forall_mem_append.1 valid).2
      obtain ⟨passed, same⟩ := Dressed.leaves_eq _ dressed valid
      have here : tokens = (front ++ run) ++ middle.tokens := by
        rw [whole, skipped, List.append_assoc]
      have later : tokens = (front ++ run ++ tree.leaves) ++ next.tokens := by
        rw [here, passed, ← List.append_assoc]
      have before : pieces (front ++ run) = pieces front := by
        rw [Layout.pieces_append, nothing, List.append_nil]
      have first := Dressed.errors _ dressed ready valid depth here
      rw [passed] at valid
      have others := AllDressed.errors _ rest (List.forall_mem_append.1 valid).2 depth later
      rw [before] at first
      rw [Layout.pieces_append, before, same] at others
      rw [flawsAll, Tree.preorderOfAll_append, List.filterMap_append, Tree.filterMap_map_leaf,
        List.nil_append, Tree.preorderOfAll_cons, List.filterMap_append]
      exact List.rel_append first others

end

end

/-- Where no token is invalid, the errors of a tree are the flaws of its shapes, in the same order. -/
theorem Rooted.forall₂_errors {lexed : Lexed} {shapes : List Shape} {tree : Tree}
    (rooted : Rooted lexed shapes tree) (valid : ∀ token ∈ lexed.tokens, token.kind ≠ .invalid) :
    List.Forall₂ (Flaw.At lexed.tokens) (flawsAll [] shapes) tree.errors := by
  obtain ⟨dressed, skips, nothing⟩ := rooted
  obtain ⟨passed, -⟩ := AllDressed.leaves_eq _ dressed valid
  obtain ⟨run, rfl, -, -⟩ := skips.exists_run fun token mem =>
    valid token (Eq.mpr (congrArg (token ∈ ·) passed) (List.mem_append_right _ mem))
  rw [Tree.errors_eq, Tree.preorder, Tree.ofChildren, Tree.preorderFrom_node, List.filterMap_cons,
    Tree.preorderOfAll_append, List.filterMap_append, Tree.filterMap_map_leaf, List.append_nil]
  exact AllDressed.errors _ dressed valid 1 (List.nil_append _).symm

end StarlarkSyntax
