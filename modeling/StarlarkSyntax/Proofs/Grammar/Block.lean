import StarlarkSyntax.Proofs.Grammar.Bound
import StarlarkSyntax.Proofs.Grammar.Letters
/-!
# Rows and blocks

Everything in the tree of a text without errors that is no statement, and no list of them, stands in one row:
no token of the layout is in it (`Shape.plain_of_bound`). So in a statement that holds no other statements
such tokens come last (`Form.form_le_of_simple`).

A block is a list of statements that begins with an indent. `Shape.Shut` says that every block in a shape has
its dedent right after it, unless nothing comes after it at all: where a text ends on a line with code, the
levels that are open there have no dedents. No block is in what stands in a row (`Shape.allShut_of_flat`).
-/

set_option autoImplicit false

namespace StarlarkSyntax

open Layout (Piece)
open scoped Computability

/-! ## Rows -/

/-- Is it the kind of something that holds no statements and is none? -/
def NodeKind.isRow : NodeKind → Bool
  | .file | .error | .statementList => false
  | kind => !kind.isStatement

/-- What stands in a row, if it is well made. -/
def Alphabet.row : Alphabet where
  token kind := !kind.isLayout
  node := NodeKind.isRow

namespace Form

open Shape

theorem expression_le_row : expression ≤ lettered .row :=
  expression_le_lettered fun kind is => by cases kind <;> first | rfl | cases is

/-- No operator is a token of the layout. -/
theorem operator_le_row : operator ≤ lettered .row := by
  rintro _ ⟨pieces, rfl, is⟩
  have plain : ∀ kind ∈ pieces.map Prod.fst, (!kind.isLayout) = true := by
    obtain ⟨level, is⟩ := Option.isSome_iff_exists.1 is
    generalize pieces.map Prod.fst = kinds at is
    unfold operatorLevel? at is
    split at is <;> simp_all [Kind.isLayout]
  exact List.forall_mem_map.2 fun piece mem => plain piece.1 (List.mem_map_of_mem mem)

theorem compound_le_row : compound ≤ lettered .row := by
  rintro _ ⟨operator, mem⟩
  exact token_le_lettered rfl mem

theorem loaded_le_row : bracketed .parenthesis loaded ≤ lettered .row := by
  unfold bracketed loaded string
  apply_rules [mul_le_such, listed_le_such, add_le, token_le_lettered, node_le_lettered, rfl]

/-- All that is assigned, and all that it is assigned to. -/
theorem assigned_le_row :
    expression * token .equals * separated expression .equals expression ≤ lettered .row := by
  have equals_le : token .equals ≤ lettered .row := token_le_lettered rfl
  exact mul_le_such (mul_le_such expression_le_row equals_le)
    (separated_le_such expression_le_row equals_le expression_le_row)

theorem form_le_row {kind : NodeKind} (row : kind.isRow = true) : kind.form ≤ lettered .row := by
  have base_le : base ≤ lettered .row := base_le_expression.trans expression_le_row
  have callee_le : callee ≤ lettered .row := callee_le_expression.trans expression_le_row
  have parameters_le : parameters ≤ lettered .row := by
    unfold parameters parameter
    apply_rules [listed_le_such, add_le, token_le_lettered, node_le_lettered, rfl]
  have clauses_le : clauses ≤ lettered .row := by
    unfold clauses clause condition
    apply_rules [mul_le_such, kstar_le_such, token_le_lettered, expression_le_row, rfl]
  cases kind with
  | file | error | statementList | assignmentStatement | augAssignmentStatement | breakStatement
  | continueStatement | expressionStatement | forStatement | ifStatement | loadStatement | passStatement
  | returnStatement | functionDeclaration => cases row
  | _ =>
      dsimp only [NodeKind.form, bracketed, name, sign, argument, entry, bound, items, string]
      apply_rules [one_le_such, mul_le_such, add_le, kstar_le_such, optional_le_such, listed_le_such,
        separated_le_such, token_le_lettered, oneOf_le_lettered, node_le_lettered, nodeOf_le_lettered,
        base_le, callee_le, expression_le_row, bare_le_lettered, operator_le_row, parameters_le,
        clauses_le, rfl]

/-- A statement that holds no other statements is a row and its end. -/
theorem form_le_of_simple {kind : NodeKind} (simple : kind.isSimple = true) :
    kind.form ≤ lettered .row * ending := by
  cases kind with
  | assignmentStatement | augAssignmentStatement | breakStatement | continueStatement
  | expressionStatement | loadStatement | passStatement | returnStatement =>
      refine mul_le_mul' ?_ le_rfl
      apply_rules [loaded_le_row, assigned_le_row, mul_le_such, optional_le_such, token_le_lettered,
        compound_le_row, expression_le_row, rfl]
  | _ => cases simple

end Form

namespace Shape

open Form

variable {made : List Shape}

theorem plain_of_forall (each : ∀ shape ∈ made, ∀ piece ∈ shape.leaves, piece.1.isLayout = false) :
    ∀ piece ∈ leavesAll made, piece.1.isLayout = false := by
  induction made with
  | nil => nofun
  | cons shape made ih =>
      obtain ⟨first, others⟩ := List.forall_mem_cons.1 each
      exact List.forall_mem_append.2 ⟨first, ih others⟩

/-- No token of the layout is in what stands in a row. -/
theorem plain_of_bound {shape : Shape} (bound : shape.Bound) (row : Alphabet.row.has shape = true) :
    ∀ piece ∈ shape.leaves, piece.1.isLayout = false := by
  refine bound.induction (motive := fun shape => Alphabet.row.has shape = true →
    ∀ piece ∈ shape.leaves, piece.1.isLayout = false) (fun piece plain => ?_)
    (fun kind message? children wellMade each row => ?_) shape row
  · exact List.forall_mem_singleton.2 (by simpa [Alphabet.has, Alphabet.row] using plain)
  · have letters := form_le_row row wellMade.wellFormed
    exact plain_of_forall fun shape mem => each shape mem (letters shape mem)

theorem plain_of_lettered (bound : AllBound made) (row : made ∈ lettered .row) :
    ∀ piece ∈ leavesAll made, piece.1.isLayout = false :=
  plain_of_forall fun shape mem => plain_of_bound ((allBound_iff made).1 bound shape mem) (row shape mem)

end Shape

/-! ## Blocks -/

/-- All tokens, and what stands in a row. -/
def Alphabet.flat : Alphabet where
  token _ := true
  node := NodeKind.isRow

namespace Shape

/-- Is a shape a list of statements that begins with an indent? -/
def isBlock : Shape → Bool
  | node .statementList _ (token (.indent, _) :: _) => true
  | _ => false

/-- Do some shapes begin with a dedent? -/
def BeginsDedent (shapes : List Shape) : Prop :=
  ∃ body rest, shapes = token (.dedent, body) :: rest

mutual

/-- Where some tokens come after a shape: is every block in it followed by its dedent, or by nothing? -/
def Shut (after : List Piece) : Shape → Prop
  | token _ => True
  | node _ _ children => AllShut after children

/-- Where some tokens come after several shapes: is every block among them and in them followed by its dedent,
or by nothing? -/
def AllShut (after : List Piece) : List Shape → Prop
  | [] => True
  | shape :: shapes => Shut (leavesAll shapes ++ after) shape ∧
      (shape.isBlock = true → BeginsDedent shapes ∨ leavesAll shapes ++ after = []) ∧ AllShut after shapes

end

variable {after : List Piece} {made made' : List Shape} {kind : NodeKind} {message? : Option String}

@[simp] theorem shut_token (piece : Piece) : Shut after (token piece) ↔ True := Iff.rfl

@[simp] theorem shut_node (children : List Shape) :
    Shut after (node kind message? children) ↔ AllShut after children := Iff.rfl

@[simp] theorem allShut_nil : AllShut after [] ↔ True := Iff.rfl

@[simp] theorem allShut_cons (shape : Shape) (shapes : List Shape) :
    AllShut after (shape :: shapes) ↔ Shut (leavesAll shapes ++ after) shape ∧
      (shape.isBlock = true → BeginsDedent shapes ∨ leavesAll shapes ++ after = []) ∧
        AllShut after shapes := Iff.rfl

theorem AllShut.append (first : AllShut (leavesAll made' ++ after) made) (second : AllShut after made') :
    AllShut after (made ++ made') := by
  induction made with
  | nil => exact second
  | cons shape made ih =>
      obtain ⟨shut, block, others⟩ := first
      rw [← List.append_assoc, ← leavesAll_append] at shut block
      refine ⟨shut, fun is => (block is).imp_left ?_, ih others⟩
      rintro ⟨body, rest, rfl⟩
      exact ⟨body, rest ++ made', rfl⟩

theorem AllShut.of_append (all : AllShut after (made ++ made')) : AllShut after made' := by
  induction made with
  | nil => exact all
  | cons shape made ih => exact ih all.2.2

/-- A token needs nothing after it. -/
theorem allShut_token (piece : Piece) : AllShut after [token piece] :=
  ⟨trivial, nofun, trivial⟩

/-- A node that is no block needs no dedent after it. -/
theorem AllShut.node (all : AllShut after made) (other : (Shape.node kind message? made).isBlock = false) :
    AllShut after [.node kind message? made] :=
  ⟨all, fun is => absurd (other.symm.trans is) Bool.false_ne_true, trivial⟩

/-! ## Where no blocks are -/

theorem flat_of_row {shape : Shape} (row : Alphabet.row.has shape = true) : Alphabet.flat.has shape = true := by
  cases shape with
  | token => rfl
  | node => exact row

theorem row_le_flat : Form.lettered .row ≤ Form.lettered .flat :=
  Form.lettered_mono fun _ => flat_of_row

theorem tokens_le_flat : Form.tokens ≤ Form.lettered .flat := by
  rintro _ ⟨pieces, rfl⟩
  exact List.forall_mem_map.2 fun _ _ => rfl

theorem expression_le_flat : Form.expression ≤ Form.lettered .flat :=
  Form.expression_le_row.trans row_le_flat

/-- Only lists of statements are blocks. -/
theorem isBlock_of_ne {children : List Shape} (other : kind ≠ .statementList) :
    (Shape.node kind message? children).isBlock = false := by
  unfold isBlock
  split
  · rename_i is
    cases is
    exact absurd rfl other
  · rfl

/-- The statements on the line of a colon are no block. -/
theorem isBlock_of_line (line : made ∈ Form.line) : (Shape.node kind message? made).isBlock = false := by
  obtain ⟨_, ⟨_, ⟨_, -, children, rfl⟩, _, -, rfl⟩, _, -, rfl⟩ := line
  unfold isBlock
  split
  · rename_i is
    cases is
  · rfl

theorem isBlock_of_flat {shape : Shape} (flat : Alphabet.flat.has shape = true) : shape.isBlock = false := by
  unfold isBlock
  split
  · cases flat
  · rfl

theorem allShut_of_forall
    (each : ∀ shape ∈ made, Alphabet.flat.has shape = true ∧ ∀ after, Shut after shape) :
    AllShut after made := by
  induction made with
  | nil => trivial
  | cons shape made ih =>
      obtain ⟨⟨flat, shut⟩, others⟩ := List.forall_mem_cons.1 each
      refine ⟨shut _, fun is => ?_, ih others⟩
      rw [isBlock_of_flat flat] at is
      cases is

/-- No block is in what stands in a row. -/
theorem shut_of_flat {shape : Shape} (bound : shape.Bound) (flat : Alphabet.flat.has shape = true) :
    ∀ after, Shut after shape := by
  refine bound.induction (motive := fun shape => Alphabet.flat.has shape = true → ∀ after, Shut after shape)
    (fun _ _ _ => trivial) (fun kind message? children wellMade each flat after => ?_) shape flat
  have letters := Form.form_le_row flat wellMade.wellFormed
  exact allShut_of_forall fun shape mem =>
    ⟨flat_of_row (letters shape mem), each shape mem (flat_of_row (letters shape mem))⟩

theorem allShut_of_flat (bound : AllBound made) (flat : made ∈ Form.lettered .flat) : AllShut after made :=
  allShut_of_forall fun shape mem =>
    ⟨flat shape mem, shut_of_flat ((allBound_iff made).1 bound shape mem) (flat shape mem)⟩

end Shape

end StarlarkSyntax
