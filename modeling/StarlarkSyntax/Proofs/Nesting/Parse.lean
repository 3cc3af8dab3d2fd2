import StarlarkSyntax.Proofs.Errors.Placed
import StarlarkSyntax.Proofs.Nesting.ListTree
import StarlarkSyntax.Proofs.Print.RoundTrip
/-!
# What is nested too deeply is cut off

A program may have lines that assign lists of lists to names. In each of them, the lists for which there
is no room are errors, each from its first bracket to the one that closes it, if the list around it is
none (`ListTree.overDeep`). There are no other errors, and what stands around such a list is read as if
the list were complete (`parse_lines`).
-/

set_option autoImplicit false

namespace StarlarkSyntax

open Layout (Piece)
open Token (Tiles)
open Shape (Flaw flaws flawsAll leavesAll)
open Grammar

namespace ListTree

/-! ## Errors in a list -/

/-- The error that a list becomes for which there is no room. -/
def flaw (part : List Piece × ListTree) : Flaw := ⟨part.1, tooDeep, part.2.pieces.map .token⟩

theorem flawsAll_withCommas {shape : ListTree → Shape}
    (leaves : ∀ tree, (shape tree).leaves = tree.pieces) (before : List Piece) (trees : List ListTree) :
    flawsAll before (Shape.withCommas (trees.map shape)) =
      (placed before trees).flatMap fun part => (shape part.2).flaws part.1 := by
  have others (before : List Piece) (trees : List ListTree) :
      flawsAll before (trees.flatMap fun tree => [.ofKind .comma, shape tree]) =
        (placed (before ++ [spelled .comma]) trees).flatMap fun part => (shape part.2).flaws part.1 := by
    induction trees generalizing before with
    | nil => rfl
    | cons tree trees ih =>
        rw [List.flatMap_cons, Shape.flawsAll_append, ih, placed, List.flatMap_cons]
        simp [flawsAll, flaws, Shape.ofKind, leaves]
  cases trees with
  | nil => rfl
  | cons tree trees =>
      rw [List.map_cons, Shape.withCommas, List.flatMap_map, flawsAll, others, leaves, placed,
        List.flatMap_cons]

/-- The errors in a list are the lists for which there is no room. -/
theorem flaws_shape (room : Nat) (before : List Piece) (tree : ListTree) :
    (tree.shape room).flaws before = (overDeep room before tree).map flaw := by
  induction room generalizing before tree with
  | zero =>
      rw [shape, flaws, Shape.flawsAll_map_token]
      rfl
  | succ room ih =>
      have last (comma : Bool) (before : List Piece) :
          flawsAll before (lastComma comma ++ [.ofKind rbracket]) = [] := by
        cases comma <;> rfl
      rw [shape, display, flaws, List.cons_append, List.cons_append, List.append_assoc, flawsAll,
        Shape.flawsAll_append, flawsAll_withCommas (leaves_shape room), last, List.append_nil, overDeep,
        List.map_flatMap, Shape.leaves_ofKind]
      exact List.flatMap_congr fun part _ => ih part.1 part.2

/-- A list can be written. -/
theorem sound_whole (enclosed : Bool) (tree : ListTree) : Sound enclosed [tree.whole] := by
  induction tree using ListTree.induction generalizing enclosed with
  | step tree ih =>
      have last : Sound true (lastComma tree.comma) := by
        cases tree.comma with
        | false => exact .nil true
        | true => exact .comma
      rw [whole_eq]
      refine .node ?_
      have inside : Sound true (Shape.withCommas (tree.elements.map whole)) :=
        .withCommas_map fun element mem => ih element mem true
      have whole : Sound enclosed _ := (inside.append last).brackets .bracket
      simpa using whole

/-! ## Lines -/

/-- A line of a program: a list that is assigned to a name, or any statement. -/
inductive Line where
  | list (name : Name) (value : ListTree)
  | statement (part : Stmt)

namespace Line

/-- How many lists may be nested in one another in a line. -/
def room : Nat := Builder.maxDepth / 2

/-- What a line is written with. -/
def pieces : Line → List Piece
  | list name value =>
    (.identifier, name.spelling) :: spelled .equals :: value.pieces ++ [Layout.mark .statementBreak]
  | statement part => part.shape.leaves

/-- The shape of a line. -/
def shape : Line → Shape
  | list name value => .node .assignmentStatement none
      [.node .targetExpression none [.ofName name], .ofKind .equals, value.shape room,
        .token (Layout.mark .statementBreak)]
  | statement part => part.shape

/-- The lists of a line for which there is no room, each with the pieces before it. -/
def cutOff (before : List Piece) : Line → List (List Piece × ListTree)
  | list name value => value.overDeep room (before ++ [(.identifier, name.spelling), spelled .equals])
  | statement _ => []

@[simp] theorem leaves_shape (line : Line) : line.shape.leaves = line.pieces := by
  cases line with
  | list name value => simp [shape, pieces]
  | statement part => rfl

theorem flaws_shape (line : Line) (before : List Piece) :
    line.shape.flaws before = (line.cutOff before).map flaw := by
  cases line with
  | list name value =>
      simp [shape, cutOff, flaws, flawsAll, ListTree.flaws_shape, Shape.ofKind, Shape.ofName]
  | statement part =>
      refine Shape.flaws_of_clean part.shape ?_ before
      simpa using part.proper.shape.clean

/-- What is written on the line of a list. -/
theorem sound_list (name : Name) (value : ListTree) :
    Sound true [.ofName name, .ofKind .equals, value.whole] :=
  .cons (.ofName name) (.cons (.ofKind rfl) (value.sound_whole true))

theorem valid (line : Line) : ∀ piece ∈ line.pieces, piece.1 ≠ .invalid := by
  cases line with
  | list name value =>
      have line : Valid [.token (Layout.mark .statementBreak)] := .token nofun
      simpa [pieces, ListTree.pieces] using ((Valid.ofSound (sound_list name value)).append line).valid
  | statement part => simpa [pieces] using part.proper.shape.valid

theorem begins (line : Line) : Begins beginsStatement line.shape.leaves := by
  cases line with
  | list name value =>
      rw [leaves_shape]
      exact ⟨_, _, rfl, rfl⟩
  | statement part => exact part.begins

/-! ## Reading lines -/

variable {lexed : Lexed} {stage : Stage lexed} {left : List Piece}

theorem gives_list (settled : stage.place.Settled) (outside : stage.place.depth = 0) (name : Name)
    (value : ListTree) (rest : stage.rest = (Line.list name value).shape.leaves ++ left) :
    Gives Grammar.statement stage () [(Line.list name value).shape] := by
  have reads : ReadsWhere (fun place => place.depth + 2 * room = Builder.maxDepth) expression
      (value.shape room) (EndsItems 1) := (readsWhere_shape room value).tupleOf
  have name_eq : (Expr.name name).shape true .alone =
      .node .targetExpression none [.ofName name] := by
    rw [Expr.shape_of_admits rfl, Expr.inner]
    rfl
  have rest' : stage.rest = leavesAll (withEquals [.name name] ++ [value.shape room]) ++
      Layout.mark .statementBreak :: left := by
    rw [rest]
    simp [shape, withEquals, name_eq]
  have gives := gives_assigned settled (.name name) [] reads rest'
    (by rw [outside]; rfl) fun target mem => by
      rw [List.mem_singleton.1 mem, outside, Expr.nesting_alone, Expr.depth]
      exact of_decide_eq_true rfl
  have same : withEquals [.name name] ++ [value.shape room] ++ [.token (Layout.mark .statementBreak)] =
      [.node .targetExpression none [.ofName name], .ofKind .equals, value.shape room,
        .token (Layout.mark .statementBreak)] := by
    simp [withEquals, name_eq]
  rw [same] at gives
  refine reaches_statementIn rest rfl ?_
  refine reaches_statementHere_simple settled rest ?_ gives
  exact ⟨_, _, rfl, rfl⟩

/-- The rule of a statement reads a line of a file. -/
theorem gives_statement (settled : stage.place.Settled) (outside : stage.place.depth = 0) (line : Line)
    (rest : stage.rest = line.shape.leaves ++ left) (noBranch : NoBranch left)
    (shallow : ∀ part, line = .statement part → part.nesting ≤ Builder.maxDepth) :
    Gives Grammar.statement stage () [line.shape] := by
  cases line with
  | list name value => exact gives_list settled outside name value rest
  | statement part =>
      have deep : stage.place.depth + part.nesting ≤ Builder.maxDepth := by
        rw [outside, Nat.zero_add]
        exact shallow part rfl
      exact Grammar.gives_statement settled part rest noBranch deep

/-! ## Writing lines -/

/-- The rows of a line. -/
def rows : Line → List Row
  | list name value => [⟨0, (.identifier, name.spelling) :: spelled .equals :: value.pieces⟩]
  | statement part => part.rows 0

theorem beginsAt (line : Line) : BeginsAt 0 line.rows := by
  cases line with
  | list name value => exact ⟨_, _, rfl⟩
  | statement part => exact part.beginsAt 0

theorem laidOut (line : Line) (more : List Row) (within : Within 0 more) :
    layoutRows [0] (line.rows ++ more) = line.pieces ++ layoutRows [0] more := by
  cases line with
  | list name value =>
      rw [rows, List.singleton_append, layoutRows_self, pieces]
      simp
  | statement part => exact part.laidOut 0 [] more within

theorem fine (line : Line) : ∀ row ∈ line.rows, row.Fine := by
  cases line with
  | list name value =>
      have fine := Row.Fine.ofSound (sound_list name value) (by simp) 0
      simpa [rows, ListTree.pieces] using fine
  | statement part => exact part.proper.rows 0

/-- There is a text of any lines. -/
theorem pieces_tokenize_lines {lines : List Line} (some : lines ≠ []) :
    Layout.pieces (tokenize (textOfRows (lines.flatMap rows))).tokens =
      lines.flatMap pieces ++ Shape.leavesAll (atTextEnd true) :=
  pieces_tokenize_flatMap beginsAt (fun line _ => line.laidOut) (fun line _ => line.fine) some

end Line

/-! ## Texts -/

theorem leavesAll_lines (lines : List Line) (broken : Bool) :
    leavesAll (lines.map Line.shape ++ atTextEnd broken) =
      lines.flatMap Line.pieces ++ leavesAll (atTextEnd broken) := by
  rw [Shape.leavesAll_append, List.map_eq_flatMap, Shape.leavesAll_flatMap]
  simp

theorem valid_lines (lines : List Line) (broken : Bool) :
    ∀ piece ∈ leavesAll (lines.map Line.shape ++ atTextEnd broken), piece.1 ≠ .invalid := by
  rw [leavesAll_lines]
  refine List.forall_mem_append.2 ⟨fun piece mem => ?_, ?_⟩
  · obtain ⟨line, -, mem⟩ := List.mem_flatMap.1 mem
    exact line.valid piece mem
  · cases broken <;> simp [atTextEnd, Layout.mark]

/-- The lists of some lines for which there is no room, each with the pieces before it. -/
def cutOff (before : List Piece) : List Line → List (List Piece × ListTree)
  | [] => []
  | line :: lines => line.cutOff before ++ cutOff (before ++ line.pieces) lines

theorem flawsAll_lines (before : List Piece) (lines : List Line) :
    flawsAll before (lines.map Line.shape) = (cutOff before lines).map flaw := by
  induction lines generalizing before with
  | nil => rfl
  | cons line lines ih =>
      rw [List.map_cons, flawsAll, ih, line.flaws_shape, line.leaves_shape, cutOff, List.map_append]

/-- An error is that of a list that stands among some tokens: it goes from the first bracket of the list
to the one that closes it. -/
structure Reported (tokens : List Token) (part : List Piece × ListTree) (error : SyntaxError) : Prop where
  message : error.message = tooDeep
  stands : ∃ front opening inside closing back,
    tokens = front ++ opening :: (inside ++ closing :: back) ∧ Layout.pieces front = part.1 ∧
      Layout.pieces (opening :: (inside ++ [closing])) = part.2.pieces ∧
      opening.piece = spelled lbracket ∧ closing.piece = spelled rbracket ∧
      error.span.start = opening.span.start ∧ error.span.stop = closing.span.stop

theorem reported {tokens : List Token} {part : List Piece × ListTree} {message : String} {span : Span}
    {stop : Caret} (tiles : Tiles {} tokens stop) (stands : (flaw part).At tokens (message, span)) :
    Reported tokens part ⟨message, span⟩ := by
  obtain ⟨same, front, run, back, whole, before, pieces, edges⟩ := stands
  have pieces : Layout.pieces run = part.2.pieces := pieces.trans (Shape.leavesAll_map_token _)
  obtain ⟨between, written⟩ := part.2.exists_pieces
  obtain _ | ⟨opening, rest⟩ := run
  · cases pieces.trans written
  obtain rfl | ⟨inside, closing, rfl⟩ := rest.eq_nil_or_concat'
  · obtain ⟨code, -⟩ := edges _ rfl opening rfl opening rfl
    have single := pieces.trans written
    rw [Layout.pieces_cons, if_pos code, Layout.pieces_nil] at single
    simp at single
  -- The first token and the last one are code, so they are the two brackets.
  have last : (opening :: (inside ++ [closing])).getLast? = some closing :=
    List.getLast?_eq_some_iff.2 ⟨opening :: inside, rfl⟩
  obtain ⟨opens, closes, covers⟩ := edges _ rfl opening rfl closing last
  have ends := pieces.trans written
  rw [Layout.pieces_cons, if_pos opens, Layout.pieces_append, Layout.pieces_cons, if_pos closes,
    Layout.pieces_nil] at ends
  obtain ⟨isOpening, ends⟩ := List.cons.inj ends
  have isClosing := List.singleton_inj.1 (List.append_inj_right' ends rfl)
  rw [whole] at tiles
  obtain ⟨middle, tiles, -⟩ := tiles.split
  obtain ⟨start, -, tiles⟩ := tiles.split
  have le : opening.span.start ≤ closing.span.stop := by
    rw [tiles.1, tiles.stop_of_getLast? last, tiles.stop_eq]
    exact Caret.le_advanceOver _ _
  dsimp only at covers
  rw [Span.ofCarets_eq le] at covers
  subst covers
  refine ⟨same, front, opening, inside, closing, back, ?_, before, pieces, isOpening, isClosing, rfl, rfl⟩
  simpa using whole

/-- In a text of such lines there is one error for each list that comes right after the last for which
there is room, and no other one; all the rest is read as it is written. -/
theorem parse_lines {text : List Char} (lines : List Line) (broken : Bool)
    (pieces : Layout.pieces (tokenize text).tokens =
      lines.flatMap Line.pieces ++ leavesAll (atTextEnd broken))
    (shallow : ∀ part, .statement part ∈ lines → part.nesting ≤ Builder.maxDepth) :
    (parse text).root.shape = [.node .file none (lines.map Line.shape ++ atTextEnd broken)] ∧
      List.Forall₂ (Reported (tokenize text).tokens) (cutOff [] lines) (parse text).errors := by
  have written := pieces.trans (leavesAll_lines lines broken).symm
  have valid := valid_lines lines broken
  have rest : (Stage.initial (tokenize text)).rest = _ :=
    (Stage.rest_initial (written ▸ valid)).trans written
  have gives : Gives file (Stage.initial (tokenize text)) ()
      [.node .file none (lines.map Line.shape ++ atTextEnd broken)] := by
    refine gives_fileOf ⟨rfl, rfl⟩ lines broken rest Line.begins
      fun line mem here left place rest noBranch => ?_
    refine line.gives_statement (by rw [place]; exact ⟨rfl, rfl⟩) (by rw [place]; rfl) rest noBranch ?_
    rintro part rfl
    exact shallow part mem
  refine ⟨shape_parse written valid gives, ?_⟩
  have errors := (rooted_parse written valid gives).forall₂_errors
    (forall_valid_of_pieces (written ▸ valid))
  have ends (before : List Piece) : flawsAll before (atTextEnd broken) = [] := by
    cases broken <;> rfl
  rw [Shape.flawsAll_append, flawsAll_lines, ends, List.append_nil, List.forall₂_map_left_iff] at errors
  rw [Parse.errors, List.forall₂_map_right_iff]
  exact errors.imp fun _ _ stands => reported (tiles_tokenize text) stands

/-- A list as the only element of a list, which is the only element of a list, and so on. -/
def within : Nat → ListTree → ListTree
  | 0, tree => tree
  | n + 1, tree => .filled (within n tree) [] false

theorem overDeep_within (n room : Nat) (before : List Piece) (tree : ListTree) :
    overDeep (room + n) before (within n tree) =
      overDeep room (before ++ List.replicate n (spelled lbracket)) tree := by
  induction n generalizing before with
  | zero => rw [List.replicate_zero, List.append_nil, within, Nat.add_zero]
  | succ n ih =>
      rw [← Nat.add_assoc, overDeep, within, elements, placed, placed, List.flatMap_cons, List.flatMap_nil,
        List.append_nil, ih, List.append_assoc, List.singleton_append, ← List.replicate_succ]

/-- Two lists that are nested too deeply, with another one in the second of them, and a statement after
them. -/
theorem parse_lines_of_siblings :
    let x : Name := ⟨['x'], ⟨_, _, rfl, rfl⟩⟩
    let one : Stmt := .simple (.assignment (.name x) []
      (.literal ⟨.int, ['1'], rfl, ⟨_, _, rfl, rfl⟩⟩))
    let second : ListTree := .filled .empty [] true
    let lines : List Line := [.list x (within 63 (.filled .empty [second] false)), .statement one]
    let before : List Piece := (.identifier, ['x']) :: spelled .equals ::
      List.replicate 64 (spelled lbracket)
    let text := "x = ".toList ++ (List.replicate 63 "[ ".toList).flatten ++
      "[ [ ] , [ [ ] , ] ]".toList ++ (List.replicate 63 " ]".toList).flatten ++ "\nx = 1\n".toList
    Layout.pieces (tokenize text).tokens = lines.flatMap Line.pieces ++ leavesAll (atTextEnd true) ∧
      (∀ part, .statement part ∈ lines → part.nesting ≤ Builder.maxDepth) ∧
      (parse text).root.shape = [.node .file none (lines.map Line.shape ++ atTextEnd true)] ∧
      List.Forall₂ (Reported (tokenize text).tokens)
        [(before, .empty), (before ++ ListTree.empty.pieces ++ [spelled .comma], second)]
        (parse text).errors := by
  intro x one second lines before text
  have written : textOfRows (lines.flatMap Line.rows) = text := by
    have last : Line.rows (.statement one) =
        [⟨0, [(.identifier, ['x']), spelled .equals, (.int, ['1'])]⟩] := by
      simp [Line.rows, one, x, Stmt.rows, SimpleStmt.parts, Expr.shape, Expr.inner, Position.enclose,
        Position.admits, Position.rank, Tier.rank, Expr.rank]
    rw [List.flatMap_cons, List.flatMap_singleton, last]
    simp only [text, x, second]
    decide +kernel
  have pieces : Layout.pieces (tokenize text).tokens =
      lines.flatMap Line.pieces ++ leavesAll (atTextEnd true) :=
    written ▸ Line.pieces_tokenize_lines (List.cons_ne_nil _ _)
  have shallow : ∀ part, .statement part ∈ lines → part.nesting ≤ Builder.maxDepth := by
    have nesting : one.nesting ≤ Builder.maxDepth := by
      simp [one, Stmt.nesting, SimpleStmt.nesting, Expr.nesting, Expr.depth, Position.levels,
        Position.entry, Position.admits, Position.rank, Tier.rank, Expr.rank, most, Builder.maxDepth]
    simpa [lines] using nesting
  obtain ⟨shape, errors⟩ := parse_lines lines true pieces shallow
  have cut : cutOff [] lines =
      [(before, .empty), (before ++ ListTree.empty.pieces ++ [spelled .comma], second)] := by
    have deep := overDeep_within 63 1 [(.identifier, ['x']), spelled .equals]
      (.filled .empty [second] false)
    exact (List.append_nil _).trans deep
  exact ⟨pieces, shallow, shape, cut ▸ errors⟩

end ListTree
end StarlarkSyntax
