import StarlarkSyntax.Proofs.Grammar.Whole
import StarlarkSyntax.Proofs.Print.Indented
/-!
# What was printed is read back

A program that was written with one statement on a line, and an expression that was written on a line
by itself, are parsed without errors into trees of their own shapes (`parse_printProgram`,
`parse_print`), unless they are nested too deeply.
-/

set_option autoImplicit false

namespace StarlarkSyntax

open Layout (Piece)
open Stage (Inside Adds)
open Grammar Shape

/-! ## Files -/

namespace Grammar

variable {lexed : Lexed} {stage : Stage lexed} {left : List Piece}

/-- The rule for the next statement of a file. -/
def nextInFile : ParseM Bool := do
  if ← atEnd then pure false
  else
    statement
    pure true

theorem gives_nextInFile {shape : Shape} (begins : Begins beginsStatement shape.leaves)
    (rest : stage.rest = shape.leaves ++ left) (gives : Gives statement stage () [shape]) :
    Gives nextInFile stage true [shape] :=
  Reaches.bind (reaches_atEnd rest (begins.append left).isEmpty
    (gives.andThen fun _ adds => reaches_pure ⟨rfl, adds⟩))

/-- The end of a statement that comes last is a round by itself. -/
theorem gives_nextInFile_break (settled : stage.place.Settled)
    (rest : stage.rest = [Layout.mark .statementBreak]) :
    Gives nextInFile stage true [.token (Layout.mark .statementBreak)] := by
  refine Reaches.bind (reaches_atEnd rest rfl ?_)
  refine Reaches.bind (reaches_loop (Reaches.bind (reaches_matches rest rfl fun after adds rest => ?_)))
  have settled : after.place.Settled := by rw [adds.later.place]; exact settled
  refine reaches_pure (reaches_loop (Reaches.bind (reaches_matches_not rest rfl (reaches_pure ?_))))
  refine Reaches.bind (reaches_scope ?_)
  refine Reaches.bind (reaches_setAfterSemicolon settled ?_)
  refine Reaches.bind (reaches_current? rest ?_)
  exact reaches_pure (reaches_pure ⟨rfl, adds⟩)

theorem gives_nextInFile_end (rest : stage.rest = []) : Gives nextInFile stage false [] :=
  Reaches.bind (reaches_atEnd rest rfl (reaches_pure ⟨rfl, .refl stage⟩))

/-- Nothing but the end of a text is left. -/
theorem gives_textEnd (settled : stage.place.Settled) (broken : Bool)
    (rest : stage.rest = leavesAll (atTextEnd broken)) :
    Gives (repeatWhile nextInFile) stage () (atTextEnd broken) := by
  cases broken with
  | false => exact gives_repeatWhile_end (gives_nextInFile_end rest)
  | true =>
      refine gives_repeatWhile_next (gives_nextInFile_break settled rest) fun after adds => ?_
      exact gives_repeatWhile_end (gives_nextInFile_end (adds.left rest))

/-- The rule of a file reads what the rule of a statement reads, and the end of the text after it. -/
theorem gives_fileOf {ι : Type} {shape : ι → Shape} (settled : stage.place.Settled) (items : List ι)
    (broken : Bool) (rest : stage.rest = leavesAll (items.map shape ++ atTextEnd broken))
    (begins : ∀ item, Begins beginsStatement (shape item).leaves)
    (reads : ∀ item ∈ items, ∀ (here : Stage lexed) left, here.place = stage.place →
      here.rest = (shape item).leaves ++ left → NoBranch left → Gives statement here () [shape item]) :
    Gives file stage () [.node .file none (items.map shape ++ atTextEnd broken)] := by
  rw [List.map_eq_flatMap] at rest ⊢
  rw [leavesAll_append] at rest
  refine Reaches.bind (reaches_mark fun marker marked inside same => ?_)
  have each : ∀ item ∈ items, ∀ (here : Stage lexed) left, here.place = stage.place →
      here.rest = leavesAll [shape item] ++ left → NoBranch left →
      Gives nextInFile here true [shape item] := fun item mem here left same rest noBranch => by
    have rest : here.rest = (shape item).leaves ++ left := by simpa using rest
    exact gives_nextInFile (begins item) rest (reads item mem here left same rest noBranch)
  have ends (here : Stage lexed) (same : here.place = stage.place)
      (rest : here.rest = leavesAll (atTextEnd broken)) :
      Gives (repeatWhile nextInFile) here () (atTextEnd broken) :=
    gives_textEnd (by rw [same]; exact settled) broken rest
  have noBranch : NoBranch (leavesAll (atTextEnd broken)) := by
    cases broken <;> exact ⟨by decide, by decide⟩
  refine (gives_repeatWhile_append items inside.later.place (same.trans rest)
    (fun item _ left => ?_) noBranch each ends).andThen fun read adds => ?_
  · simpa using ((begins item).append left).noBranch
  · exact reaches_done (inside.adds adds) fun after adds _ => ⟨rfl, adds⟩

/-- The rule of a statement reads one that is not nested too deeply. -/
theorem gives_statement (settled : stage.place.Settled) (part : Stmt)
    (rest : stage.rest = part.shape.leaves ++ left) (noBranch : NoBranch left)
    (deep : stage.place.depth + part.nesting ≤ Builder.maxDepth) :
    Gives statement stage () [part.shape] :=
  part.reads (show part.nesting ≤ Builder.maxDepth by omega) stage left settled rest noBranch deep

/-- The rule of a file reads statements, and the end of the text after them. -/
theorem gives_file (settled : stage.place.Settled) (statements : List Stmt) (broken : Bool)
    (rest : stage.rest = leavesAll (statements.map Stmt.shape ++ atTextEnd broken))
    (deep : ∀ statement ∈ statements,
      stage.place.depth + statement.nesting ≤ Builder.maxDepth) :
    Gives file stage () [.node .file none (statements.map Stmt.shape ++ atTextEnd broken)] :=
  gives_fileOf settled statements broken rest Stmt.begins fun part mem here left same rest noBranch =>
    gives_statement (by rw [same]; exact settled) part rest noBranch (by rw [same]; exact deep part mem)

end Grammar

/-! ## Texts -/

/-- A text whose pieces are statements and the end of the text is parsed into them. -/
theorem parse_of_pieces {text : List Char} (statements : List Stmt) (broken : Bool)
    (pieces : Layout.pieces (tokenize text).tokens =
      leavesAll (statements.map Stmt.shape ++ atTextEnd broken))
    (shallow : ∀ statement ∈ statements, statement.nesting ≤ Builder.maxDepth) :
    (parse text).hasErrors = false ∧
      (parse text).root.shape = [.node .file none (statements.map Stmt.shape ++ atTextEnd broken)] := by
  have valid : Valid (statements.map Stmt.shape ++ atTextEnd broken) := by
    refine .append ?_ (by cases broken; exacts [⟨rfl, nofun⟩, .token nofun])
    rw [List.map_eq_flatMap]
    exact .flatMap fun statement _ => statement.proper.shape
  have rest : (Stage.initial (tokenize text)).rest = _ :=
    (Stage.rest_initial (pieces ▸ valid.valid)).trans pieces
  have deep : ∀ statement ∈ statements, (Stage.initial (tokenize text)).place.depth +
      statement.nesting ≤ Builder.maxDepth := fun statement mem => by
    show 0 + _ ≤ _
    rw [Nat.zero_add]
    exact shallow statement mem
  have shape := shape_parse pieces valid.valid (gives_file ⟨rfl, rfl⟩ statements broken rest deep)
  exact ⟨hasErrors_parse shape valid.clean, shape⟩

/-- A program that was written with one statement on a line, and with each block indented by itself, is
parsed without errors into its own tree. -/
theorem parse_printProgram (program : List Stmt) (shallow : nestingOf program ≤ Builder.maxDepth) :
    (parse (printProgram program)).hasErrors = false ∧
      (parse (printProgram program)).root.shape = [.node .file none (shapesOf program)] := by
  have pieces : Layout.pieces (tokenize (printProgram program)).tokens =
      leavesAll (program.map Stmt.shape ++ atTextEnd !program.isEmpty) := by
    cases program with
    | nil =>
        rw [printProgram, pieces_read, Cursor.read_nil rfl]
        rfl
    | cons statement program =>
        have written := pieces_tokenize_flatMap (fun part : Stmt => part.beginsAt 0)
          (fun part _ more => part.laidOut 0 [] more) (fun part _ => part.proper.rows 0)
          (List.cons_ne_nil statement program)
        rw [leavesAll_append, leavesAll_statements]
        exact written
  exact parse_of_pieces program _ pieces fun statement mem =>
    Nat.le_trans (le_most (List.mem_map_of_mem mem)) shallow

/-- Blocks of several widths, two of them ended by one line, and targets that are read twice. -/
theorem parse_printProgram_of_blocks :
    let f : Name := ⟨['f'], ⟨_, _, rfl, rfl⟩⟩
    let x : Name := ⟨['x'], ⟨_, _, rfl, rfl⟩⟩
    let value : Expr := .name x
    let leave : Stmt := .simple (.single .leave)
    let pass : Stmt := .simple (.single .pass)
    let choose : Stmt := .branching ⟨value, ⟨3, by decide, leave, []⟩⟩
      [⟨.negation value, ⟨1, by decide, pass, []⟩⟩]
      (some ⟨2, by decide, .simple (.augmented value .plus rfl value), [pass]⟩)
    let program : List Stmt :=
      [.function f [.mandatory x] ⟨2, by decide, .looping value value ⟨1, by decide, choose, []⟩,
          [.simple (.returning none)]⟩,
        .simple (.assignment (.name f) [value] (.call (.name f) []))]
    let text := ("def f ( x ) :\n" ++ "  for x in x :\n" ++ "   if x :\n" ++ "      break\n" ++
      "   elif not x :\n" ++ "    pass\n" ++ "   else :\n" ++ "     x += x\n" ++ "     pass\n" ++
      "  return\n" ++ "f = x = f ( )\n").toList
    nestingOf program ≤ Builder.maxDepth ∧ printProgram program = text ∧
      (parse text).hasErrors = false ∧
      (parse text).root.shape = [.node .file none (shapesOf program)] := by
  intro f x value leave pass choose program text
  have shallow : nestingOf program ≤ Builder.maxDepth := by
    simp [program, choose, leave, pass, value, nestingOf, Stmt.nesting, Block.nesting,
      Branch.nesting, otherwiseNesting, SimpleStmt.nesting, Expr.nesting, Expr.depth,
      Position.levels, Position.entry, Position.admits, Position.rank, Tier.rank, Expr.rank, most,
      Parameter.depth, Builder.maxDepth]
  have print : printProgram program = text := by
    simp [program, choose, leave, pass, value, text, printProgram, textOfRows, rowsOf, Stmt.rows,
      Block.rows, Branch.rows, otherwiseRows, SimpleStmt.parts, Row.text, Expr.shape, Expr.inner,
      Position.enclose, Position.admits, Position.rank, Tier.rank, Expr.rank, withCommas, spaced,
      Lone.word, Parameter.shape]
    rfl
  exact ⟨shallow, print, print ▸ parse_printProgram program shallow⟩

theorem shape_expression (expr : Expr) : (Stmt.simple (.expression expr)).shape =
    .node .expressionStatement none
      [expr.shape false .alone, .token (Layout.mark .statementBreak)] := by
  rw [Stmt.shape]
  rfl

/-- The pieces of an expression that was written on a line by itself. -/
theorem pieces_print (expr : Expr) : Layout.pieces (tokenize expr.print).tokens =
    leavesAll ([Stmt.simple (.expression expr)].map Stmt.shape ++ atTextEnd false) := by
  have fine := (Stmt.simple (.expression expr)).proper.rows 0
  rw [Stmt.rows] at fine
  have fine := fine _ List.mem_cons_self
  rw [Expr.print]
  have alone : leavesAll (SimpleStmt.expression expr).parts = (expr.shape false .alone).leaves :=
    List.append_nil _
  rw [alone] at fine
  rw [pieces_tokenize_spaced fine, List.map_singleton, shape_expression]
  simp [atTextEnd]

/-- An expression that was written on a line by itself is parsed without errors into its own tree. -/
theorem parse_print (expr : Expr) (shallow : expr.nesting .alone ≤ Builder.maxDepth) :
    (parse expr.print).hasErrors = false ∧
      (parse expr.print).root.shape = [.node .file none [.node .expressionStatement none
        [expr.shape false .alone, .token (Layout.mark .statementBreak)]]] := by
  have parsed := parse_of_pieces [.simple (.expression expr)] false (pieces_print expr)
    fun statement mem => by
      rw [List.mem_singleton.1 mem, Stmt.nesting]
      exact shallow
  rw [List.map_singleton, shape_expression] at parsed
  exact parsed

/-- Operands in parentheses, a base among them, and a slice with a colon of a lambda in it. -/
theorem parse_print_of_slice :
    let x : Expr := .name ⟨['x'], ⟨_, _, rfl, rfl⟩⟩
    let one : Expr := .literal ⟨.int, ['1'], rfl, ⟨_, _, rfl, rfl⟩⟩
    let expr : Expr := .binary .multiply (.binary .add x one)
      (.power (.signed .minus x) (.slice x [] (.pair none (some (.lambda [] one))) []))
    let text := "( x + 1 ) * ( - x ) ** x [ : lambda : 1 ]".toList
    expr.nesting .alone ≤ Builder.maxDepth ∧ expr.print = text ∧
      (parse text).hasErrors = false ∧
      (parse text).root.shape = [.node .file none [.node .expressionStatement none
        [expr.shape false .alone, .token (Layout.mark .statementBreak)]]] := by
  intro x one expr text
  have shallow : expr.nesting .alone ≤ Builder.maxDepth := by
    simp [expr, x, one, Expr.nesting, Expr.depth, Position.levels, Position.entry, Position.admits,
      Position.rank, Tier.rank, Expr.rank, Tier.tighter, Binary.level, Bounds.depth, partDepth, most,
      Builder.maxDepth, Position.admitsLambda, Position.body]
  have print : expr.print = text := by
    simp [expr, x, one, text, Expr.print, Expr.shape, Expr.inner, Position.enclose, Position.admits,
      Position.rank, Tier.rank, Expr.rank, Tier.tighter, Binary.level, Binary.kinds, Bounds.shapes,
      partShapes, withCommas, Position.admitsLambda, Position.body, spaced, Sign.kind]
    rfl
  exact ⟨shallow, print, print ▸ parse_print expr shallow⟩

end StarlarkSyntax
