import StarlarkSyntax.Proofs.Print.Row
/-!
# Programs and how they are written

The syntax of programs, the shapes of their trees, and the rows that they are written as: one
statement on a line, and the statements of a block further to the right than the line above them. How
far is chosen for each block. The shapes have the tokens of layout too, an `indent` at the beginning
of each block and a `dedent` after its end.

`Stmt.nesting` counts the levels of nesting that are entered where a statement is read; a block is one
of them.
-/

set_option autoImplicit false

namespace StarlarkSyntax

open Layout (Piece mark)
open Grammar Shape

/-! ## Simple statements -/

/-- A statement of one word. -/
inductive Lone where
  | pass
  | leave
  | next
deriving DecidableEq

namespace Lone

def word : Lone → Reserved
  | pass => .passWord
  | leave => .breakWord
  | next => .continueWord

def kind : Lone → NodeKind
  | pass => .passStatement
  | leave => .breakStatement
  | next => .continueStatement

end Lone

/-- A string in a `load`. -/
structure Quoted where
  spelling : List Char
  stands : StandsAlone (.string, spelling)

/-- What a `load` takes from its module, with or without another name for it. -/
inductive Loaded where
  | same (symbol : Quoted)
  | renamed (name : Name) (symbol : Quoted)

/-- A statement that holds no other statements. -/
inductive SimpleStmt where
  | single (word : Lone)
  | returning (value? : Option Expr)
  | loading (module : Quoted) (values : List Loaded)
  | expression (value : Expr)
  /-- There is more than one target if the assignment is chained. -/
  | assignment (first : Expr) (others : List Expr) (value : Expr)
  | augmented (target : Expr) (operator : Operator) (joined : operator.hasCompoundForm = true)
    (value : Expr)

def Quoted.shape (quoted : Quoted) : Shape :=
  .node .stringLiteralExpression none [.token (.string, quoted.spelling)]

def Loaded.shape : Loaded → Shape
  | same symbol => .node .stringLoadValue none [symbol.shape]
  | renamed name symbol => .node .namedLoadValue none [ofName name, ofKind .equals, symbol.shape]

namespace SimpleStmt

def kind : SimpleStmt → NodeKind
  | single word => word.kind
  | returning _ => .returnStatement
  | loading .. => .loadStatement
  | expression _ => .expressionStatement
  | assignment .. => .assignmentStatement
  | augmented .. => .augAssignmentStatement

/-- The shapes on the line of a statement. -/
def parts : SimpleStmt → List Shape
  | single word => [ofKind (.reserved word.word)]
  | returning value? =>
    ofKind (.reserved .returnWord) :: value?.toList.map fun value => value.shape false .alone
  | loading module values =>
    ofKind (.reserved .loadWord) :: ofKind lpar ::
      withCommas (module.shape :: values.map Loaded.shape) ++ [ofKind rpar]
  | expression value => [value.shape false .alone]
  | assignment first others value =>
    ((first :: others).flatMap fun target => [target.shape true .alone, ofKind .equals]) ++
      [value.shape false .alone]
  | augmented target operator _ value =>
    [target.shape false .alone, ofKind (.compoundAssign operator), value.shape false .alone]

/-- The end of the line belongs to the statement. -/
def shape (statement : SimpleStmt) : Shape :=
  .node statement.kind none (statement.parts ++ [.token (mark .statementBreak)])

def nesting : SimpleStmt → Nat
  | single _ | loading .. => 0
  | returning value? => most (value?.toList.map fun value => value.nesting .alone)
  | expression value => value.nesting .alone
  | assignment first others value =>
    most ((first :: others ++ [value]).map fun part => part.nesting .alone)
  | augmented target _ _ value => max (target.nesting .alone) (value.nesting .alone)

end SimpleStmt

/-! ## Statements -/

mutual

inductive Stmt where
  | simple (statement : SimpleStmt)
  /-- An `if` with its `elif`s and its `else`. -/
  | branching (first : Branch) (others : List Branch) (otherwise? : Option Block)
  | looping (targets range : Expr) (body : Block)
  | function (name : Name) (parameters : List Parameter) (body : Block)

/-- A condition and what is done if it holds. -/
inductive Branch where
  | mk (condition : Expr) (body : Block)

/-- The statements of a block, and how much further than the line above they are indented. -/
inductive Block where
  | mk (width : Nat) (positive : 0 < width) (first : Stmt) (others : List Stmt)

end

mutual

def Stmt.shape : Stmt → Shape
  | .simple statement => statement.shape
  | .branching first others otherwise? =>
    .node .ifStatement none
      (first.shapes .ifWord ++ (others.flatMap fun branch => branch.shapes .elifWord) ++
        otherwiseShapes otherwise?)
  | .looping targets range body =>
    .node .forStatement none
      ([ofKind (.reserved .forWord), targets.shape true .targets, ofKind (.reserved .inWord),
        range.shape false .alone] ++ body.shapes)
  | .function name parameters body =>
    .node .functionDeclaration none
      ([ofKind (.reserved .defWord), ofName name,
        .node .parameterList none
          (ofKind lpar :: withCommas (parameters.map fun parameter => parameter.shape) ++
            [ofKind rpar])] ++ body.shapes)
termination_by statement => sizeOf statement

def Branch.shapes (word : Reserved) : Branch → List Shape
  | .mk condition body =>
    [ofKind (.reserved word), condition.shape false .test] ++ body.shapes
termination_by branch => sizeOf branch

def otherwiseShapes : Option Block → List Shape
  | none => []
  | some body => ofKind (.reserved .elseWord) :: body.shapes
termination_by body? => sizeOf body?

/-- A block with the colon before it. -/
def Block.shapes : Block → List Shape
  | .mk _ _ first others =>
    [ofKind .colon, .token (mark .statementBreak),
      .node .statementList none
        (.token (mark .indent) :: first.shape :: others.map fun statement => statement.shape),
      .token (mark .dedent)]
termination_by body => sizeOf body

end

mutual

/-- The levels of nesting that are entered where a statement is read. -/
def Stmt.nesting : Stmt → Nat
  | .simple statement => statement.nesting
  | .branching first others otherwise? =>
    most (first.nesting :: (others.map fun branch => branch.nesting) ++
      [otherwiseNesting otherwise?])
  | .looping targets range body =>
    most [targets.nesting .targets, range.nesting .alone, body.nesting]
  | .function _ parameters body =>
    max (most (parameters.map fun parameter => parameter.depth)) body.nesting
termination_by statement => sizeOf statement

def Branch.nesting : Branch → Nat
  | .mk condition body => max (condition.nesting .test) body.nesting
termination_by branch => sizeOf branch

def otherwiseNesting : Option Block → Nat
  | none => 0
  | some body => body.nesting
termination_by body? => sizeOf body?

def Block.nesting : Block → Nat
  | .mk _ _ first others => 1 + most (first.nesting :: others.map fun statement => statement.nesting)
termination_by body => sizeOf body

end

mutual

/-- The rows of a statement that is indented so far. -/
def Stmt.rows (column : Nat) : Stmt → List Row
  | .simple statement => [⟨column, leavesAll statement.parts⟩]
  | .branching first others otherwise? =>
    first.rows column .ifWord ++ (others.flatMap fun branch => branch.rows column .elifWord) ++
      otherwiseRows column otherwise?
  | .looping targets range body =>
    ⟨column, spelled (.reserved .forWord) :: (targets.shape true .targets).leaves ++
      spelled (.reserved .inWord) :: (range.shape false .alone).leaves ++ [spelled .colon]⟩ ::
      body.rows column
  | .function name parameters body =>
    ⟨column, spelled (.reserved .defWord) :: (.identifier, name.spelling) :: spelled lpar ::
      leavesAll (withCommas (parameters.map fun parameter => parameter.shape)) ++
      [spelled rpar, spelled .colon]⟩ :: body.rows column
termination_by statement => sizeOf statement

def Branch.rows (column : Nat) (word : Reserved) : Branch → List Row
  | .mk condition body =>
    ⟨column, spelled (.reserved word) :: (condition.shape false .test).leaves ++ [spelled .colon]⟩ ::
      body.rows column
termination_by branch => sizeOf branch

def otherwiseRows (column : Nat) : Option Block → List Row
  | none => []
  | some body => ⟨column, [spelled (.reserved .elseWord), spelled .colon]⟩ :: body.rows column
termination_by body? => sizeOf body?

def Block.rows (column : Nat) : Block → List Row
  | .mk width _ first others =>
    first.rows (column + width) ++ others.flatMap fun statement => statement.rows (column + width)
termination_by body => sizeOf body

end

/-! ## Programs -/

/-- The rows of a program, which is not indented. -/
def rowsOf (program : List Stmt) : List Row := program.flatMap fun statement => statement.rows 0

/-- A program written with one statement on a line. -/
def printProgram (program : List Stmt) : List Char := textOfRows (rowsOf program)

/-- What the end of a text adds to its statements, if it comes on a line of its own. -/
def atTextEnd (broken : Bool) : List Shape :=
  if broken then [.token (mark .statementBreak)] else []

/-- The tree of a program. The end of the text ends a statement once more. -/
def shapesOf (program : List Stmt) : List Shape :=
  program.map Stmt.shape ++ atTextEnd !program.isEmpty

def nestingOf (program : List Stmt) : Nat := most (program.map Stmt.nesting)

end StarlarkSyntax
