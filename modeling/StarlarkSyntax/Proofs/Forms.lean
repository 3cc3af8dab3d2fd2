import StarlarkSyntax.Proofs.Print.RoundTrip
import StarlarkSyntax.Proofs.Print.Simple
import StarlarkSyntax.Proofs.Twin.File
/-!
# What nodes are made of

In the tree of a text without errors, every statement, every signature and every expression is made of what it
should be (`wellFormed_of_parse`), and the operands of every operator bind as tightly as its level asks for
(`bindsTightly_of_parse`), because everything in there is well made (`allBound_of_parse`).

What stands in brackets after an expression is taken for a slice or for a subscript before it is read, by
counting brackets and lambdas in the tokens ahead. In a text without errors the tree bears this out
(`fitsBrackets_of_parse`): the items of a slice have a colon that is outside all brackets in there and
ends the parameters of no lambda, and there is no such colon in a subscript.

A `load` names its module first, unless there is nothing in its parentheses (`module_of_parse`), which is no
error (`gives_loading_nothing`). And no link of a chain begins with a name that is assigned to, unless it is a
bare one that is called (`callee_of_parse`).
-/

set_option autoImplicit false

namespace StarlarkSyntax

open Form
open Shape (withCommas)

/-- In a text without errors, every node is made of what it should be. -/
theorem wellFormed_of_parse (text : List Char) (fine : (parse text).hasErrors = false) :
    ∀ node ∈ (parse text).root.nodes, ∃ shape, node.shape = [shape] ∧ shape.WellFormed :=
  fun _ mem => (Tree.bound_of_mem_nodes (allBound_of_parse fine) mem).imp fun _ =>
    .imp_right fun bound => bound.wellMade.wellFormed

/-! ## Operands and brackets -/

/-- In a text without errors, all operands bind tightly enough for their operators. -/
theorem bindsTightly_of_parse (text : List Char) (fine : (parse text).hasErrors = false) :
    ∀ node ∈ (parse text).root.nodes, ∃ shape, node.shape = [shape] ∧ shape.BindsTightly :=
  fun _ mem => (Tree.bound_of_mem_nodes (allBound_of_parse fine) mem).imp fun _ =>
    .imp_right fun bound => bound.wellMade.bindsTightly

/-- A sum, a product, a sign and a power, each in the one before it. -/
theorem bindsTightly_of_parse_sum :
    let text := "x + 1 * - x ** 1".toList
    (parse text).hasErrors = false ∧
      ∀ node ∈ (parse text).root.nodes, ∃ shape, node.shape = [shape] ∧ shape.BindsTightly := by
  intro text
  let x : Expr := .name ⟨['x'], ⟨_, _, rfl, rfl⟩⟩
  let one : Expr := .literal ⟨.int, ['1'], rfl, ⟨_, _, rfl, rfl⟩⟩
  let expr : Expr := .binary .add x (.binary .multiply one (.signed .minus (.power x one)))
  have print : expr.print = text := by
    simp [expr, x, one, text, Expr.print, Expr.shape, Expr.inner, Position.enclose, Position.admits,
      Position.rank, Tier.rank, Expr.rank, Tier.tighter, Binary.level, Binary.kinds, spaced, Sign.kind]
    rfl
  have shallow : (Stmt.simple (.expression expr)).nesting ≤ Builder.maxDepth := by
    simp [expr, x, one, Stmt.nesting, SimpleStmt.nesting, Expr.nesting, Expr.depth, Position.levels,
      Position.entry, Position.admits, Position.rank, Tier.rank, Expr.rank, Tier.tighter, Binary.level,
      Builder.maxDepth]
  have fine : (parse text).hasErrors = false := by
    rw [← print]
    exact (parse_of_pieces [.simple (.expression expr)] false (pieces_print expr) (by simpa using shallow)).1
  exact ⟨fine, bindsTightly_of_parse text fine⟩

/-- What follows the opening parenthesis of a `load`: at once the other one, or the module. -/
theorem Form.loaded_cases {made : List Shape}
    (mem : made ∈ loaded * (token (.closing .parenthesis) * ending)) :
    made ∈ token (.closing .parenthesis) * ending + string * ⊤ := by
  rw [loaded, listed, optional, separated, add_mul, one_mul, mul_assoc, mul_assoc] at mem
  rcases mem with nothing | ⟨module, first, more, -, rfl⟩
  · exact .inl nothing
  · exact .inr (Language.append_mem_mul first trivial)

/-- In a text without errors, a `load` names its module first, unless there is nothing in its parentheses. -/
theorem module_of_parse (text : List Char) (fine : (parse text).hasErrors = false) :
    ∀ node ∈ (parse text).root.nodes, ∀ message? children,
      node.shape = [.node .loadStatement message? children] →
      children ∈ token (.reserved .loadWord) * token (.opening .parenthesis)
        * (token (.closing .parenthesis) * ending + string * ⊤) := by
  intro node mem message? children is
  obtain ⟨shape, is', formed⟩ := wellFormed_of_parse text fine node mem
  cases is.symm.trans is'
  have made : children ∈ token (.reserved .loadWord) * bracketed .parenthesis loaded * ending := formed
  rw [bracketed, mul_assoc, mul_assoc, mul_assoc, ← mul_assoc] at made
  obtain ⟨words, begun, inside, mem, rfl⟩ := made
  exact Language.append_mem_mul begun (loaded_cases mem)

namespace Grammar

open Stage

/-- A `load` with nothing in its parentheses is read without an error. -/
theorem gives_loading_nothing {lexed : Lexed} {stage : Stage lexed} {left : List Layout.Piece}
    (settled : stage.place.Settled)
    (rest : stage.rest = spelled (.reserved .loadWord) :: spelled lpar :: spelled rpar ::
      Layout.mark .statementBreak :: left) :
    Gives simpleStatement stage () [.node .loadStatement none
      [.ofKind (.reserved .loadWord), .ofKind lpar, .ofKind rpar, .token (Layout.mark .statementBreak)]] := by
  refine Reaches.bind (reaches_current? rest ?_)
  refine Reaches.bind (reaches_mark fun marker marked inside same => ?_)
  refine Reaches.bind (reaches_advance (same.trans rest) fun passed adds rest => ?_)
  have inside := inside.adds adds
  refine Reaches.bind (Reaches.bind (reaches_matches rest rfl fun opened adds rest => ?_))
  have inside := inside.adds adds
  refine Reaches.bind (reaches_isAt rest rfl ?_)
  refine Reaches.bind (reaches_expect rest rfl fun closed adds rest => reaches_pure ?_)
  exact reaches_statementEnd settled (inside.adds adds) rest

end Grammar

/-! ## Chains -/

/-- Is it the kind of a link of a chain, or of a name that stands by itself? -/
def NodeKind.isLink : NodeKind → Bool
  | .callExpression | .referenceExpression | .sliceExpression | .subscriptionExpression
  | .targetExpression => true
  | _ => false

variable {form : Language Shape} {head : Shape} {children : List Shape}

theorem Form.isTarget_of_base (made : head :: children ∈ base * form) : head.isTarget = false := by
  obtain ⟨_, ⟨shape, rfl, -, other⟩, _, -, same⟩ := made
  obtain ⟨rfl, -⟩ := List.cons.inj same
  exact other

/-- A link begins with no target, unless it is the call of one that is a bare name. -/
theorem Form.callee_of_isTarget {kind : NodeKind} (link : kind.isLink = true)
    (made : head :: children ∈ kind.form) (target : head.isTarget = true) :
    kind = .callExpression ∧ [head] ∈ nodeOf .targetExpression (token .identifier) := by
  have noBase {form : Language Shape} : ¬head :: children ∈ base * form := fun made =>
    Bool.false_ne_true ((isTarget_of_base made).symm.trans target)
  have noName : ¬head :: children ∈ name := by
    rw [name, optional, add_mul, one_mul, mul_assoc]
    rintro (⟨body, same⟩ | made)
    · obtain ⟨rfl, -⟩ := List.cons.inj same
      cases target
    · exact noBase made
  cases kind with
  | callExpression =>
      rw [NodeKind.form, callee, add_mul] at made
      rcases made with made | ⟨_, ⟨word, mem, rfl⟩, _, -, same⟩
      · exact absurd made noBase
      · obtain ⟨rfl, -⟩ := List.cons.inj same
        exact ⟨rfl, word, mem, rfl⟩
  | sliceExpression | subscriptionExpression => exact absurd made noBase
  | referenceExpression | targetExpression => exact absurd made noName
  | _ => cases link

/-- In a text without errors no link of a chain begins with a target, unless it is the call of one that is a
bare name. -/
theorem callee_of_parse (text : List Char) (fine : (parse text).hasErrors = false) :
    ∀ node ∈ (parse text).root.nodes, ∀ kind message? head children,
      node.shape = [.node kind message? (head :: children)] → kind.isLink = true → head.isTarget = true →
        kind = .callExpression ∧ [head] ∈ nodeOf .targetExpression (token .identifier) := by
  intro node mem kind message? head children is link target
  obtain ⟨shape, is', formed⟩ := wellFormed_of_parse text fine node mem
  cases is.symm.trans is'
  exact callee_of_isTarget link formed target

end StarlarkSyntax
