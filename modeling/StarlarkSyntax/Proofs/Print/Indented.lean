import StarlarkSyntax.Proofs.Print.Statement
/-!
# The layout of programs

The rows of a statement, with the tokens of layout, are the leaves of its shape. A row opens a block
if it is indented further than the row above it, and the row after a block closes it, whatever blocks
inside it end there too: one `dedent` for each of them comes out of the same comparison of columns
(`layoutRows_dedent`).
-/

set_option autoImplicit false

namespace StarlarkSyntax

open Layout (Piece)
open Grammar Shape

/-! ## Columns -/

/-- Nothing follows, or a row that is indented no further. -/
def Within (column : Nat) (rows : List Row) : Prop :=
  ∀ row, rows.head? = some row → row.indent ≤ column

theorem Within.mono {column column' : Nat} {rows : List Row} (within : Within column rows)
    (le : column ≤ column') : Within column' rows :=
  fun row same => Nat.le_trans (within row same) le

/-- Some rows begin with one that is indented so far. -/
def BeginsAt (column : Nat) (rows : List Row) : Prop :=
  ∃ pieces more, rows = ⟨column, pieces⟩ :: more

theorem BeginsAt.within {column : Nat} {rows : List Row} (begins : BeginsAt column rows) :
    Within column rows := by
  obtain ⟨pieces, more, rfl⟩ := begins
  rintro row same
  cases same
  exact Nat.le_refl column

theorem BeginsAt.append {column : Nat} {rows : List Row} (begins : BeginsAt column rows)
    (more : List Row) : BeginsAt column (rows ++ more) := by
  obtain ⟨pieces, others, rfl⟩ := begins
  exact ⟨pieces, others ++ more, rfl⟩

variable {column deeper : Nat} {outer : List Nat} {rows : List Row}

theorem indentTo_of_le {indent : Nat} (le : indent ≤ column) :
    Layout.indentTo indent (column :: outer) = Layout.dedentTo indent (column :: outer) :=
  if_neg (Nat.not_lt.2 le)

/-- A row as far to the right as the block it stands in neither opens nor closes one. -/
theorem indentTo_self (column : Nat) (outer : List Nat) :
    Layout.indentTo column (column :: outer) = ([], column :: outer) := by
  rw [indentTo_of_le (Nat.le_refl column)]
  cases outer with
  | nil => rfl
  | cons => rw [Layout.dedentTo, if_neg (Nat.lt_irrefl column)]

theorem layoutRows_self (pieces : List Piece) (rows : List Row) :
    layoutRows (column :: outer) (⟨column, pieces⟩ :: rows) =
      pieces ++ Layout.mark .statementBreak :: layoutRows (column :: outer) rows := by
  rw [layoutRows, indentTo_self, List.nil_append]

/-- A row further to the right opens a block. -/
theorem layoutRows_indent (less : column < deeper) (begins : BeginsAt deeper rows) :
    layoutRows (column :: outer) rows =
      Layout.mark .indent :: layoutRows (deeper :: column :: outer) rows := by
  obtain ⟨pieces, more, rfl⟩ := begins
  have opened : Layout.indentTo deeper (column :: outer) =
      ([Layout.mark .indent], deeper :: column :: outer) := if_pos less
  rw [layoutRows_self, layoutRows, opened, List.singleton_append, List.cons_append]

/-- What follows a block closes it. -/
theorem layoutRows_dedent (less : column < deeper) (within : Within column rows) :
    layoutRows (deeper :: column :: outer) rows =
      Layout.mark .dedent :: layoutRows (column :: outer) rows := by
  cases rows with
  | nil => rfl
  | cons row rows =>
      have le : row.indent ≤ column := within row rfl
      have closed : Layout.indentTo row.indent (deeper :: column :: outer) =
          (Layout.mark .dedent :: (Layout.indentTo row.indent (column :: outer)).1,
            (Layout.indentTo row.indent (column :: outer)).2) := by
        rw [indentTo_of_le le, indentTo_of_le (by omega), Layout.dedentTo, if_pos (by omega),
          if_neg (by omega)]
      rw [layoutRows, layoutRows, closed, List.cons_append, List.cons_append]

/-! ## Rows of statements -/

theorem Stmt.beginsAt (statement : Stmt) (column : Nat) : BeginsAt column (statement.rows column) := by
  cases statement with
  | simple | looping | function =>
      rw [rows]
      exact ⟨_, _, rfl⟩
  | branching first =>
      obtain ⟨condition, body⟩ := first
      rw [rows, Branch.rows]
      exact ⟨_, _, rfl⟩

/-- The rows of a statement are laid out as the leaves of its shape, wherever it stands. -/
def LaidOut (statement : Stmt) : Prop :=
  ∀ column outer more, Within column more →
    layoutRows (column :: outer) (statement.rows column ++ more) =
      statement.shape.leaves ++ layoutRows (column :: outer) more

/-- Rows of several things that stand as far to the right as the block they are in. -/
theorem layoutRows_flatMap {ι : Type} {rows : ι → List Row} {pieces : ι → List Piece} {items : List ι}
    (begins : ∀ item, BeginsAt column (rows item))
    (laidOut : ∀ item ∈ items, ∀ more, Within column more →
      layoutRows (column :: outer) (rows item ++ more) =
        pieces item ++ layoutRows (column :: outer) more)
    {more : List Row} (within : Within column more) :
    layoutRows (column :: outer) (items.flatMap rows ++ more) =
      items.flatMap pieces ++ layoutRows (column :: outer) more := by
  induction items with
  | nil => rfl
  | cons item items ih =>
      obtain ⟨first, laidOut⟩ := List.forall_mem_cons.1 laidOut
      have within' : Within column (items.flatMap rows ++ more) := by
        cases items with
        | nil => exact within
        | cons next items =>
            rw [List.flatMap_cons, List.append_assoc]
            exact ((begins next).append _).within
      rw [List.flatMap_cons, List.append_assoc, first _ within', ih laidOut, List.flatMap_cons,
        List.append_assoc]

/-- The pieces of a text of such rows. -/
theorem pieces_tokenize_flatMap {ι : Type} {rows : ι → List Row} {pieces : ι → List Piece}
    {items : List ι} (begins : ∀ item, BeginsAt 0 (rows item))
    (laidOut : ∀ item ∈ items, ∀ more, Within 0 more →
      layoutRows [0] (rows item ++ more) = pieces item ++ layoutRows [0] more)
    (fine : ∀ item ∈ items, ∀ row ∈ rows item, row.Fine) (some : items ≠ []) :
    Layout.pieces (tokenize (textOfRows (items.flatMap rows))).tokens =
      items.flatMap pieces ++ [Layout.mark .statementBreak] := by
  have notEmpty : items.flatMap rows ≠ [] := by
    obtain ⟨item, items, rfl⟩ := List.exists_cons_of_ne_nil some
    obtain ⟨first, others, written⟩ := begins item
    rw [List.flatMap_cons, written]
    nofun
  have fine : ∀ row ∈ items.flatMap rows, row.Fine := fun row mem => by
    obtain ⟨item, mem, mem'⟩ := List.mem_flatMap.1 mem
    exact fine item mem row mem'
  have laidOut : layoutRows [0] (items.flatMap rows ++ []) = items.flatMap pieces ++ layoutRows [0] [] :=
    layoutRows_flatMap begins laidOut nofun
  rw [List.append_nil, show layoutRows [0] [] = [] from rfl, List.append_nil] at laidOut
  rw [pieces_tokenize_rows fine notEmpty, laidOut]

theorem leavesAll_statements (statements : List Stmt) :
    leavesAll (statements.map Stmt.shape) = statements.flatMap fun part => part.shape.leaves := by
  rw [List.map_eq_flatMap, leavesAll_flatMap]
  simp

theorem layoutRows_statements {statements : List Stmt} (laidOut : ∀ part ∈ statements, LaidOut part)
    {more : List Row} (within : Within column more) :
    layoutRows (column :: outer) ((statements.flatMap fun statement => statement.rows column) ++ more) =
      leavesAll (statements.map Stmt.shape) ++ layoutRows (column :: outer) more := by
  rw [leavesAll_statements]
  exact layoutRows_flatMap (fun part => part.beginsAt column)
    (fun part mem more => laidOut part mem column outer more) within

/-- A block and the row above it, which ends with a colon. -/
theorem layoutRows_block (body : Block) (laidOut : ∀ part ∈ body.parts, LaidOut part)
    (head : List Piece) {more : List Row} (within : Within column more) :
    layoutRows (column :: outer) (⟨column, head ++ [spelled .colon]⟩ :: body.rows column ++ more) =
      head ++ leavesAll body.shapes ++ layoutRows (column :: outer) more := by
  obtain ⟨width, positive, first, others⟩ := body
  have less : column < column + width := Nat.lt_add_of_pos_right positive
  change ∀ part ∈ first :: others, LaidOut part at laidOut
  have begins : BeginsAt (column + width) (((first :: others).flatMap fun statement =>
      statement.rows (column + width)) ++ more) := by
    rw [List.flatMap_cons, List.append_assoc]
    exact (first.beginsAt _).append _
  have rows : Block.rows column ⟨width, positive, first, others⟩ =
      (first :: others).flatMap fun statement => statement.rows (column + width) := by
    rw [Block.rows, List.flatMap_cons]
  rw [List.cons_append, layoutRows_self, rows, layoutRows_indent less begins,
    layoutRows_statements laidOut (within.mono (Nat.le_of_lt less)), layoutRows_dedent less within,
    Block.shapes]
  simp

/-- The rows of a branch of an `if`. -/
theorem layoutRows_branch (branch : Branch) (word : Reserved)
    (laidOut : ∀ part ∈ branch.parts, LaidOut part) {more : List Row} (within : Within column more) :
    layoutRows (column :: outer) (branch.rows column word ++ more) =
      leavesAll (branch.shapes word) ++ layoutRows (column :: outer) more := by
  obtain ⟨condition, body⟩ := branch
  rw [Branch.rows, layoutRows_block body laidOut _ within, Branch.shapes]
  simp

theorem within_branches (branches : List Branch) {more : List Row} (within : Within column more) :
    Within column ((branches.flatMap fun branch => branch.rows column .elifWord) ++ more) := by
  cases branches with
  | nil => exact within
  | cons next branches =>
      obtain ⟨condition, body⟩ := next
      rw [List.flatMap_cons, List.append_assoc, Branch.rows]
      exact BeginsAt.within ⟨_, _, rfl⟩

/-- The rows of the `elif`s of an `if`. -/
theorem layoutRows_branches {branches : List Branch}
    (laidOut : ∀ branch ∈ branches, ∀ part ∈ branch.parts, LaidOut part) {more : List Row}
    (within : Within column more) :
    layoutRows (column :: outer)
        ((branches.flatMap fun branch => branch.rows column .elifWord) ++ more) =
      leavesAll (branches.flatMap fun branch => branch.shapes .elifWord) ++
        layoutRows (column :: outer) more := by
  induction branches with
  | nil => rfl
  | cons branch branches ih =>
      obtain ⟨first, laidOut⟩ := List.forall_mem_cons.1 laidOut
      rw [List.flatMap_cons, List.append_assoc,
        layoutRows_branch branch .elifWord first (within_branches branches within), ih laidOut, List.flatMap_cons, leavesAll_append, List.append_assoc]

/-- The rows of every statement are laid out as the leaves of its shape. -/
theorem Stmt.laidOut (statement : Stmt) : LaidOut statement := by
  induction statement using Stmt.induction with
  | step statement ih =>
  intro column outer more within
  cases statement with
  | simple statement =>
      rw [rows, shape, SimpleStmt.shape, List.singleton_append, layoutRows_self]
      simp
  | branching first others otherwise? =>
      have laidOut : ∀ branch ∈ others, ∀ part ∈ branch.parts, LaidOut part :=
        fun branch mem part mem' => ih part (by
          simp only [parts, List.mem_append, List.mem_flatMap]
          exact .inl (.inr ⟨branch, mem, mem'⟩))
      have last : layoutRows (column :: outer) (otherwiseRows column otherwise? ++ more) =
          leavesAll (otherwiseShapes otherwise?) ++ layoutRows (column :: outer) more := by
        cases otherwise? with
        | none => rw [otherwiseRows, otherwiseShapes]; rfl
        | some body =>
            rw [otherwiseRows, otherwiseShapes]
            exact layoutRows_block body (fun part mem => ih part (by simp [parts, mem]))
              [spelled (.reserved .elseWord)] within
      have within' : Within column (otherwiseRows column otherwise? ++ more) := by
        cases otherwise? with
        | none => rw [otherwiseRows]; exact within
        | some body => rw [otherwiseRows]; exact BeginsAt.within ⟨_, _, rfl⟩
      rw [rows, shape, List.append_assoc, List.append_assoc,
        layoutRows_branch first .ifWord (fun part mem => ih part (by simp [parts, mem]))
          (within_branches others within'),
        layoutRows_branches laidOut within', last]
      simp
  | looping targets range body =>
      rw [rows, shape, layoutRows_block body ih _ within]
      simp
  | function name parameters body =>
      have head : spelled (.reserved .defWord) :: (.identifier, name.spelling) :: spelled lpar ::
          leavesAll (withCommas (parameters.map fun parameter => parameter.shape)) ++
            [spelled rpar, spelled .colon] =
          (spelled (.reserved .defWord) :: (.identifier, name.spelling) :: spelled lpar ::
            leavesAll (withCommas (parameters.map fun parameter => parameter.shape)) ++
              [spelled rpar]) ++ [spelled .colon] := by simp
      rw [rows, shape, head, layoutRows_block body ih _ within]
      simp

/-! ## What is written can be read back -/

/-- Some shapes have no messages, and their tokens are tokens. -/
structure Valid (shapes : List Shape) : Prop where
  clean : allClean shapes = true
  valid : ∀ piece ∈ leavesAll shapes, piece.1 ≠ .invalid

namespace Valid

variable {shapes shapes' : List Shape}

theorem append (first : Valid shapes) (second : Valid shapes') : Valid (shapes ++ shapes') where
  clean := by rw [allClean_append, first.clean, second.clean]; rfl
  valid := by
    rw [leavesAll_append]
    exact List.forall_mem_append.2 ⟨first.valid, second.valid⟩

theorem cons {shape : Shape} (first : Valid [shape]) (others : Valid shapes) :
    Valid (shape :: shapes) :=
  first.append others

theorem node {kind : NodeKind} (inside : Valid shapes) : Valid [.node kind none shapes] where
  clean := by simp [inside.clean]
  valid := by simpa using inside.valid

theorem ofSound {enclosed : Bool} (sound : Sound enclosed shapes) : Valid shapes where
  clean := sound.clean
  valid := fun piece mem invalid => by
    have significant := (sound.writable piece mem).significant
    rw [invalid] at significant
    cases significant

theorem token {piece : Piece} (valid : piece.1 ≠ .invalid) : Valid [.token piece] where
  clean := rfl
  valid := by simpa using valid

theorem flatMap {α : Type} {items : List α} {shapes : α → List Shape}
    (valid : ∀ item ∈ items, Valid (shapes item)) : Valid (items.flatMap shapes) := by
  induction items with
  | nil => exact ⟨rfl, nofun⟩
  | cons item items ih =>
      obtain ⟨first, valid⟩ := List.forall_mem_cons.1 valid
      exact first.append (ih valid)

end Valid

/-- A row of the tokens of some shapes. -/
theorem Row.Fine.ofSound {shapes : List Shape} (sound : Sound true shapes)
    (notEmpty : leavesAll shapes ≠ []) (column : Nat) : Row.Fine ⟨column, leavesAll shapes⟩ :=
  ⟨notEmpty, sound.writable, sound.closed 0⟩

theorem Quoted.sound (quoted : Quoted) : Sound true [quoted.shape] :=
  .node (.token ⟨quoted.stands, rfl, rfl⟩ rfl (.inr rfl) nofun)

theorem Loaded.sound (loaded : Loaded) : Sound true [loaded.shape] := by
  cases loaded with
  | same symbol => exact .node symbol.sound
  | renamed name symbol => exact .node (.cons (.ofName name) (.cons (.ofKind rfl) symbol.sound))

theorem SimpleStmt.sound (statement : SimpleStmt) : Sound true statement.parts := by
  cases statement with
  | single word => cases word <;> exact .ofKind rfl
  | returning value? =>
      refine .cons (.ofKind rfl) ?_
      cases value? with
      | none => exact .nil true
      | some value => exact value.sound true false .alone
  | loading module values =>
      refine .cons (.ofKind rfl) (.brackets (.withCommas fun shape mem => ?_) .parenthesis)
      rcases List.mem_cons.1 mem with rfl | mem
      · exact module.sound
      · obtain ⟨loaded, -, rfl⟩ := List.mem_map.1 mem
        exact loaded.sound
  | expression value => exact value.sound true false .alone
  | assignment first others value =>
      refine .append (.flatMap fun target _ => ?_) (value.sound true false .alone)
      exact .cons (target.sound true true .alone) (.ofKind rfl)
  | augmented target operator joined value =>
      exact .cons (target.sound true false .alone)
        (.cons (.ofKind joined) (value.sound true false .alone))

/-- A statement has no messages, and its rows can be written. -/
structure Proper (statement : Stmt) : Prop where
  shape : Valid [statement.shape]
  rows : ∀ column, ∀ row ∈ statement.rows column, row.Fine

theorem Block.valid (body : Block) (proper : ∀ part ∈ body.parts, Proper part) :
    Valid body.shapes := by
  obtain ⟨width, positive, first, others⟩ := body
  obtain ⟨head, proper⟩ := List.forall_mem_cons.1 (show ∀ part ∈ first :: others, _ from proper)
  rw [Block.shapes]
  refine .cons (.ofSound .colon) (.cons (.token (by decide)) (.cons (.node ?_) (.token (by decide))))
  refine .cons (.token (by decide)) (.cons head.shape ?_)
  rw [List.map_eq_flatMap]
  exact .flatMap fun part mem => (proper part mem).shape

theorem Block.fine (body : Block) (proper : ∀ part ∈ body.parts, Proper part) (column : Nat) :
    ∀ row ∈ body.rows column, row.Fine := by
  obtain ⟨width, positive, first, others⟩ := body
  obtain ⟨head, proper⟩ := List.forall_mem_cons.1 (show ∀ part ∈ first :: others, _ from proper)
  rw [Block.rows]
  refine List.forall_mem_append.2 ⟨head.rows _, fun row mem => ?_⟩
  obtain ⟨part, mem, mem'⟩ := List.mem_flatMap.1 mem
  exact (proper part mem).rows _ row mem'

/-- The rows of a block with the row above it. -/
theorem Block.fine_head (body : Block) (proper : ∀ part ∈ body.parts, Proper part) {column : Nat}
    {shapes : List Shape} (sound : Sound true shapes) :
    ∀ row ∈ ⟨column, leavesAll shapes ++ [spelled .colon]⟩ :: body.rows column, Row.Fine row := by
  refine List.forall_mem_cons.2 ⟨?_, body.fine proper column⟩
  have head := Row.Fine.ofSound (sound.append .colon) (by simp) column
  simpa using head

/-- The head of a branch, up to its colon. -/
theorem sound_branch (condition : Expr) {word : Reserved}
    (neutral : isNeutral (.reserved word) = true) :
    Sound true [ofKind (.reserved word), condition.shape false .test] :=
  .cons (.ofKind neutral) (condition.sound true false .test)

theorem Branch.valid (branch : Branch) {word : Reserved}
    (neutral : isNeutral (.reserved word) = true) (proper : ∀ part ∈ branch.parts, Proper part) :
    Valid (branch.shapes word) := by
  obtain ⟨condition, body⟩ := branch
  rw [Branch.shapes]
  exact (Valid.ofSound (sound_branch condition neutral)).append (body.valid proper)

theorem Branch.fine (branch : Branch) {word : Reserved}
    (neutral : isNeutral (.reserved word) = true) (proper : ∀ part ∈ branch.parts, Proper part)
    (column : Nat) : ∀ row ∈ branch.rows column word, row.Fine := by
  obtain ⟨condition, body⟩ := branch
  rw [Branch.rows]
  simpa using body.fine_head proper (sound_branch condition neutral)

/-- Every statement can be written, and its shape has no messages. -/
theorem Stmt.proper (statement : Stmt) : Proper statement := by
  induction statement using Stmt.induction with
  | step statement ih =>
  cases statement with
  | simple statement =>
      constructor
      · rw [shape, SimpleStmt.shape]
        exact .node (.append (.ofSound statement.sound) (.token (by decide)))
      · intro column row mem
        rw [rows] at mem
        rw [List.mem_singleton.1 mem]
        refine .ofSound statement.sound (fun none => ?_) column
        have begins := statement.begins
        rw [SimpleStmt.shape, leaves_node, leavesAll_append, none] at begins
        exact (show nextKind [Layout.mark .statementBreak] ≠ _ from begins.ne rfl) rfl
  | branching first others otherwise? =>
      have head : ∀ part ∈ first.parts, Proper part := fun part mem => ih part (by simp [parts, mem])
      have middle : ∀ branch ∈ others, ∀ part ∈ branch.parts, Proper part :=
        fun branch mem part mem' => ih part (by
          simp only [parts, List.mem_append, List.mem_flatMap]
          exact .inl (.inr ⟨branch, mem, mem'⟩))
      have last : ∀ body ∈ otherwise?, ∀ part ∈ body.parts, Proper part := fun body mem part mem' =>
        ih part (by
          simp only [parts, List.mem_append, List.mem_flatMap, Option.mem_toList]
          exact .inr ⟨body, mem, mem'⟩)
      constructor
      · rw [shape]
        refine .node ((first.valid rfl head).append (.flatMap fun branch mem =>
          branch.valid rfl (middle branch mem)) |>.append ?_)
        cases otherwise? with
        | none => rw [otherwiseShapes]; exact ⟨rfl, by decide⟩
        | some body =>
            rw [otherwiseShapes]
            have word : Sound true [ofKind (.reserved .elseWord)] := .ofKind rfl
            exact .cons (.ofSound word) (body.valid (last body rfl))
      · intro column
        rw [rows]
        refine List.forall_mem_append.2 ⟨List.forall_mem_append.2 ⟨first.fine rfl head column,
          fun row mem => ?_⟩, ?_⟩
        · obtain ⟨branch, mem, mem'⟩ := List.mem_flatMap.1 mem
          exact branch.fine rfl (middle branch mem) column row mem'
        · cases otherwise? with
          | none => rw [otherwiseRows]; rintro _ ⟨⟩
          | some body =>
              rw [otherwiseRows]
              have word : Sound true [ofKind (.reserved .elseWord)] := .ofKind rfl
              exact body.fine_head (last body rfl) word
  | looping targets range body =>
      have head : Sound true [ofKind (.reserved .forWord), targets.shape true .targets,
          ofKind (.reserved .inWord), range.shape false .alone] :=
        .cons (.ofKind rfl) (.cons (targets.sound true true .targets)
          (.cons (.ofKind rfl) (range.sound true false .alone)))
      constructor
      · rw [shape]
        exact .node ((Valid.ofSound head).append (body.valid ih))
      · intro column
        rw [rows]
        simpa using body.fine_head ih head
  | function name parameters body =>
      have head : Sound true [ofKind (.reserved .defWord), ofName name,
          .node .parameterList none
            (ofKind lpar :: withCommas (parameters.map fun parameter => parameter.shape) ++
              [ofKind rpar])] := by
        refine .cons (.ofKind rfl) (.cons (.ofName name) (.node (.brackets ?_ .parenthesis)))
        exact .withCommas_map fun parameter _ =>
          (Parameter.sound fun part _ enclosed target position =>
            part.sound enclosed target position).inside true
      constructor
      · rw [shape]
        exact .node ((Valid.ofSound head).append (body.valid ih))
      · intro column
        rw [rows]
        simpa using body.fine_head ih head

end StarlarkSyntax
