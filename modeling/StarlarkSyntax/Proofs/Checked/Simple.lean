import StarlarkSyntax.Proofs.Checked.Expression
import StarlarkSyntax.Proofs.Progress.Statement
/-!
# Simple statements with their assertions

Statements do not go back further than they began, so it makes no difference to them which scope they
stand in or how many indents are astray (`Anywhere`). What an ending of a statement changes there is
changed by a single operation.
-/

set_option autoImplicit false

namespace StarlarkSyntax.Checked

open Grammar (current? isAt isAtAny atEnd advance matches? expect missing endOfStatement
  expectedExpression lpar rpar)

/-! ## The rules -/

/-- A statement of one word, which has to come next. -/
def wordStatement (kind : NodeKind) : CheckedM Unit := do
  let statement ← mark
  advance
  endOfStatement
  done statement kind

/-- A `return`, with or without a value. -/
def returnStatement : CheckedM Unit := do
  assertAt (.reserved .returnWord)
  let statement ← mark
  advance
  if !((← atEnd) || (← isAtAny [.statementBreak, .semicolon])) then
    require expectedExpression expression
  endOfStatement
  done statement .returnStatement

/-- A string in a `load`. -/
def loadString : CheckedM Unit := do
  if ← isAt .string then tokenNode .stringLiteralExpression
  else if (← atEnd) || (← isAtAny [.statementBreak, rpar, .comma]) then missing "expected a string"
  else advanceError "expected a string"

/-- A symbol to load, with or without another name for it. -/
def loadValue : CheckedM Unit := do
  let value ← mark
  if !(← matches? .identifier) then
    loadString
    done value .stringLoadValue
  else if ← matches? .equals then
    loadString
    done value .namedLoadValue
  else
    rollback value
    let value ← mark
    loadString
    done value .stringLoadValue

/-- What a `load` has in its parentheses: the module, and what is loaded from it. -/
def loadValues : CheckedM Unit := do
  if !(← matches? lpar) then missing "expected '('"
  else
    if !(← isAt rpar) then
      loadString
      repeatWhile do
        if ← isAt rpar then pure false
        else if !(← matches? .comma) then
          missing "expected ',' or ')'"
          pure false
        else if ← isAt rpar then pure false
        else
          loadValue
          pure true
    let _ ← expect rpar "expected ')'"

/-- A `load`. -/
def loadStatement : CheckedM Unit := do
  assertAt (.reserved .loadWord)
  let statement ← mark
  advance
  loadValues
  endOfStatement
  done statement .loadStatement

/-- The targets of an assignment and its value. -/
def assignment : CheckedM Unit := do
  targetExpression
  if ← expect .equals "expected '='" then
    repeatWhile do
      let value ← mark
      if !(← expression) then
        drop value
        missing expectedExpression
        pure false
      else if !(← isAt .equals) then
        drop value
        pure false
      else
        rollback value
        targetExpression
        matches? .equals

/-- Reports a token that cannot begin a statement, and passes it. -/
def unexpectedToken : CheckedM Unit := do
  match ← current? with
  | none => pure ()
  | some .inconsistentDedent =>
    advanceError "unindent does not match any outer indentation level"
  | some .indent =>
    lift (modify fun parser => { parser with strayIndents := parser.strayIndents + 1 })
    advanceError "unexpected indent"
  | some kind => advanceError ("statement expected, found " ++ kind.name)

/-- An expression or an assignment. -/
def expressionStatement : CheckedM Unit := do
  let statement ← mark
  if !(← expression) then
    rollback statement
    unexpectedToken
  else
    match ← current? with
    | some (.compoundAssign _) =>
      advance
      require expectedExpression expression
      endOfStatement
      done statement .augAssignmentStatement
    | some .equals =>
      rollback statement
      let statement ← mark
      assignment
      endOfStatement
      done statement .assignmentStatement
    | _ =>
      endOfStatement
      done statement .expressionStatement

/-- A simple statement. -/
def simpleStatement : CheckedM Unit := do
  match ← current? with
  | none => pure ()
  | some (.reserved .breakWord) => wordStatement .breakStatement
  | some (.reserved .continueWord) => wordStatement .continueStatement
  | some (.reserved .passWord) => wordStatement .passStatement
  | some (.reserved .returnWord) => returnStatement
  | some (.reserved .loadWord) => loadStatement
  | some _ => expressionStatement

/-! ## What they do -/

section Rules

variable {base : Parser} {depth : Nat} {marks : List Mark} {watched : Watched} {statement : Mark}

theorem mirrors_endOfStatement : Mirrors Anywhere depth (lift endOfStatement) endOfStatement :=
  mirrors_keeps Grammar.keeps_endOfStatement

/-- The number of indents that are astray may change at any time. -/
theorem keeps_astray (change : Nat → Nat) :
    Grammar.Keeps depth
      (modify fun parser => { parser with strayIndents := change parser.strayIndents }) :=
  fun _ _ _ since => ⟨_, _, rfl, since.builder, since.blocks, since.outer, since.atDepth,
    since.reached⟩

/-- A statement becomes a node when its end has been read. -/
theorem matches_close (live : Live Anywhere base depth (statement :: marks) watched)
    (made : statement.marker.Since base 0) (kind : NodeKind) :
    Matches (do
      endOfStatement
      done statement kind) (do
      endOfStatement
      Grammar.done statement.marker kind) watched (Agrees Anywhere base depth marks) :=
  mirrors_endOfStatement.bind live fun _ _ live =>
    (matches_done live made kind).agrees

theorem mirrors_wordStatement (kind : NodeKind) :
    Mirrors Anywhere depth (wordStatement kind) (Grammar.wordStatement kind) := by
  intro base marks watched live
  refine (matches_mark live).bind ?_
  rintro statement _ watched ⟨rfl, made, live, -⟩
  exact mirrors_advance.bind live fun _ _ live => matches_close live made kind

theorem mirrors_returnStatement : MirrorsAt Anywhere depth (.reserved .returnWord) returnStatement
    Grammar.returnStatement := by
  intro base marks watched live seen
  refine .assertAt seen ((matches_mark live).bind ?_)
  rintro statement _ watched ⟨rfl, made, live, -⟩
  refine mirrors_advance.bind live fun _ watched live => ?_
  refine matches_look live fun watched _ live => matches_look live fun watched _ live => ?_
  refine .ite (fun _ => ?_) fun _ => matches_close live made _
  refine (mirrors_require _ (mirrors_expression depth)).bind live fun _ _ live => ?_
  exact matches_close live made _

theorem mirrors_loadString : Mirrors Anywhere depth loadString Grammar.loadString := by
  refine (mirrors_isAt _).seq fun _ => .ite (mirrors_tokenNode _) ?_
  refine (mirrors_look _).seq fun _ => (mirrors_look _).seq fun _ => ?_
  exact .ite (mirrors_missing _) (mirrors_advanceError _)

theorem mirrors_loadValue : Mirrors Anywhere depth loadValue Grammar.loadValue := by
  intro base marks watched live
  have close {watched : Watched} {value : Mark} (made : value.marker.Since base 0)
      (live : Live Anywhere base depth (value :: marks) watched) (kind : NodeKind) : Matches (do
        loadString
        done value kind) (do
        Grammar.loadString
        Grammar.done value.marker kind) watched (Agrees Anywhere base depth marks) :=
    mirrors_loadString.bind live fun _ _ live =>
      (matches_done live made kind).agrees
  refine (matches_mark live).bind ?_
  rintro value _ watched ⟨rfl, made, live, -⟩
  refine (mirrors_matches? _).bind live fun _ watched live =>
    .ite (fun _ => close made live _) fun _ => ?_
  refine (mirrors_matches? _).bind live fun _ watched live =>
    .ite (fun _ => close made live _) fun _ => ?_
  refine (matches_rollback live made).bind fun _ _ watched live => ?_
  refine (matches_mark live).bind ?_
  rintro value _ watched ⟨rfl, made, live, -⟩
  exact close made live _

theorem mirrors_loadValues : Mirrors Anywhere depth loadValues Grammar.loadValues := by
  have close : Mirrors Anywhere depth (do
      let _ ← expect rpar "expected ')'") (do
      let _ ← expect rpar "expected ')'") := (mirrors_expect _ _).seq fun _ => .pure ()
  refine (mirrors_matches? _).seq fun _ => .ite (mirrors_missing _) ?_
  refine (mirrors_isAt _).seq fun _ => .ite ?_ close
  refine mirrors_loadString.seq fun _ => (mirrors_repeatWhile ?_).seq fun _ => close
  refine (mirrors_isAt _).seq fun _ => .ite (.pure false) ?_
  refine (mirrors_matches? _).seq fun _ => .ite ((mirrors_missing _).seq fun _ => .pure false) ?_
  refine (mirrors_isAt _).seq fun _ => .ite (.pure false) ?_
  exact mirrors_loadValue.seq fun _ => .pure true

theorem mirrors_loadStatement : MirrorsAt Anywhere depth (.reserved .loadWord) loadStatement
    Grammar.loadStatement := by
  intro base marks watched live seen
  refine .assertAt seen ((matches_mark live).bind ?_)
  rintro statement _ watched ⟨rfl, made, live, -⟩
  refine mirrors_advance.bind live fun _ watched live => ?_
  exact mirrors_loadValues.bind live fun _ _ live => matches_close live made _

theorem mirrors_assignment : Mirrors Anywhere depth assignment Grammar.assignment := by
  refine (mirrors_targetExpression depth).seq fun _ => ?_
  refine (mirrors_expect _ _).seq fun _ => .ite (mirrors_repeatWhile ?_) (.pure ())
  intro base marks watched live
  refine (matches_mark live).bind ?_
  rintro value _ watched ⟨rfl, made, live, -⟩
  refine (mirrors_expression depth).bind live fun _ watched live => .ite (fun _ => ?_) fun _ => ?_
  · refine (matches_drop live made).bind fun _ _ watched live => ?_
    exact (mirrors_missing _).bind live fun _ _ live => .pure ⟨rfl, live⟩
  refine (mirrors_isAt _).bind live fun _ watched live => .ite (fun _ => ?_) fun _ => ?_
  · exact (matches_drop live made).answers _
  · refine (matches_rollback live made).bind fun _ _ watched live => ?_
    refine (mirrors_targetExpression depth).bind live fun _ watched live => ?_
    exact mirrors_matches? _ base marks watched live

theorem mirrors_unexpectedToken :
    Mirrors Anywhere depth unexpectedToken Grammar.unexpectedToken := by
  intro base marks watched live
  refine matches_look live fun next same live => ?_
  cases seen : watched.parser.builder.current? with
  | none => exact .pure ⟨rfl, live⟩
  | some kind =>
      cases kind with
      | indent =>
          refine (mirrors_keeps (keeps_astray (· + 1))).bind live fun _ next live => ?_
          exact mirrors_advanceError _ base marks next live
      | _ => exact mirrors_advanceError _ base marks next live

theorem mirrors_expressionStatement :
    Mirrors Anywhere depth expressionStatement Grammar.expressionStatement := by
  intro base marks watched live
  refine (matches_mark live).bind ?_
  rintro statement _ watched ⟨rfl, made, live, -⟩
  refine (mirrors_expression depth).bind live fun _ watched live => .ite (fun _ => ?_) fun _ => ?_
  · refine (matches_rollback live made).bind fun _ _ watched live => ?_
    exact mirrors_unexpectedToken base marks watched live
  refine matches_look live fun next same live => ?_
  cases watched.parser.builder.current? with
  | none => exact matches_close live made _
  | some kind =>
      cases kind with
      | compoundAssign symbol =>
          refine mirrors_advance.bind live fun _ next live => ?_
          refine (mirrors_require _ (mirrors_expression depth)).bind live fun _ next live => ?_
          exact matches_close live made _
      | equals =>
          refine (matches_rollback live made).bind fun _ _ next live => ?_
          refine (matches_mark live).bind ?_
          rintro statement _ next ⟨rfl, made, live, -⟩
          exact mirrors_assignment.bind live fun _ _ live => matches_close live made _
      | _ => exact matches_close live made _

theorem mirrors_simpleStatement :
    Mirrors Anywhere depth simpleStatement Grammar.simpleStatement := by
  intro base marks watched live
  refine matches_look live fun next same live => ?_
  cases seen : watched.parser.builder.current? with
  | none => exact .pure ⟨rfl, live⟩
  | some kind =>
      rw [← same] at seen
      cases kind with
      | reserved name =>
          cases name with
          | returnWord => exact mirrors_returnStatement base marks next live seen
          | loadWord => exact mirrors_loadStatement base marks next live seen
          | breakWord => exact mirrors_wordStatement _ base marks next live
          | continueWord => exact mirrors_wordStatement _ base marks next live
          | passWord => exact mirrors_wordStatement _ base marks next live
          | _ => exact mirrors_expressionStatement base marks next live
      | _ => exact mirrors_expressionStatement base marks next live

end Rules

end StarlarkSyntax.Checked
