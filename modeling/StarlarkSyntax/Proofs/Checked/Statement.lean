import StarlarkSyntax.Proofs.Checked.Simple
/-!
# Statements with their assertions

A suite on the line of its colon and the body of a function are followed in a scope of their own,
which is left again: there is always an outer one (`mirrors_within`). A block is followed a level
deeper, and that level is left again (`mirrors_blockOf`). Blocks are filled in by an induction on how
many levels are left, as expressions are.
-/

set_option autoImplicit false

namespace StarlarkSyntax.Checked

open Grammar (withBuilder onScopes current? isAt isAtWord atEnd advance matches? expect missing
  skipUntil scope setAfterSemicolon strayIndents blocks atBlockEnd skipBlockRound
  expectedExpression lpar)

/-! ## Suites -/

/-- What comes before a suite; answers whether a suite may follow. -/
def colon : CheckedM Bool := do
  if ← matches? .colon then pure true
  else if ← isAt .statementBreak then
    missing "expected ':'"
    pure true
  else
    let junk ← mark
    let _ ← skipUntil [.dedent, .statementBreak, .colon]
    let found ← matches? .colon
    if !found then
      let _ ← matches? .statementBreak
    fault junk "expected ':'"
    pure found

/-- A statement of a suite on the line of its colon. -/
def inlineStatement : CheckedM Unit :=
  within Scope.withSuite simpleStatement

/-- A suite on the line of its colon. -/
def inlineSuite : CheckedM Unit := do
  let list ← mark
  if ← atEnd then missing "expected a statement"
  else
    inlineStatement
    repeatWhile do
      if !(← matches? .semicolon) then pure false
      else if ← matches? .statementBreak then pure false
      else
        inlineStatement
        pure true
  done list .statementList

/-- An indented suite; the end of the line before it has been passed. -/
def blockSuite (block : CheckedM Unit) : CheckedM Unit := do
  let list ← mark
  if ← matches? .indent then
    block
    done list .statementList
    let _ ← matches? .dedent
  else
    missing "expected an indented block"
    done list .statementList

/-- The body of a compound statement. -/
def suite (block : CheckedM Unit) : CheckedM Unit := do
  if ← matches? .statementBreak then blockSuite block else inlineSuite

/-- A colon and a suite. -/
def colonAndSuite (block : CheckedM Unit) : CheckedM Unit := do
  if ← colon then suite block else emptyNode .statementList

/-! ## Compound statements -/

/-- A condition, a colon and a suite, after the word before them. -/
def branch (block : CheckedM Unit) : CheckedM Unit := do
  advance
  requireTest nested
  colonAndSuite block

/-- An `if` with all its branches. -/
def ifStatement (block : CheckedM Unit) : CheckedM Unit := do
  assertAt (.reserved .ifWord)
  let statement ← mark
  branch block
  repeatWhile do
    if ← isAtWord .elifWord then
      branch block
      pure true
    else pure false
  if ← matches? (.reserved .elseWord) then colonAndSuite block
  done statement .ifStatement

/-- A `for`. -/
def forStatement (block : CheckedM Unit) : CheckedM Unit := do
  assertAt (.reserved .forWord)
  let statement ← mark
  advance
  targets nested
  let _ ← expect (.reserved .inWord) "expected 'in'"
  require expectedExpression expression
  colonAndSuite block
  done statement .forStatement

/-- The declaration of a function. -/
def functionDeclaration (block : CheckedM Unit) : CheckedM Unit := do
  let declaration ← mark
  assertAt (.reserved .defWord)
  advance
  let _ ← expect .identifier "expected a function name"
  if ← isAt lpar then parameterList nested
  else
    missing "expected '('"
    emptyNode .parameterList
  within Scope.withFunction (colonAndSuite block)
  done declaration .functionDeclaration

/-! ## All statements -/

/-- A statement that holds others. -/
def compoundStatement (afterSemicolon : Bool) (rule : CheckedM Unit) : CheckedM Unit := do
  if afterSemicolon then missing "compound statements can't follow ';' on the same line"
  rule

/-- A statement that begins at the next token. The dedent that ends a block is left. -/
def statementHere (block : CheckedM Unit) : CheckedM Unit := do
  let afterSemicolon := (← scope).afterSemicolon
  setAfterSemicolon false
  match ← current? with
  | none => pure ()
  | some .dedent =>
    if 0 < (← strayIndents) then
      lift (modify fun parser => { parser with strayIndents := parser.strayIndents - 1 })
      advance
    else if (← blocks) = 0 then simpleStatement
  | some (.reserved .ifWord) => compoundStatement afterSemicolon (ifStatement block)
  | some (.reserved .forWord) => compoundStatement afterSemicolon (forStatement block)
  | some (.reserved .defWord) => compoundStatement afterSemicolon (functionDeclaration block)
  | some _ => simpleStatement

/-- A statement, with the ends of empty ones before it. -/
def statementIn (block : CheckedM Unit) : CheckedM Unit := do
  repeatWhile (matches? .statementBreak)
  statementHere block

/-- Puts the rest of a block that is nested too deeply into an error node, up to its dedent. -/
def skipBlock : CheckedM Unit := do
  let junk ← mark
  let _ ← Grammar.loop skipBlockRound 1
  fault junk "block nested too deeply"

/-- The statements of a block, up to its dedent, if it is not nested too deeply. -/
def blockOf (statement : CheckedM Unit) : CheckedM Unit := do
  if ← withBuilder Builder.enter then
    lift (modify fun parser => { parser with blocks := parser.blocks + 1 })
    repeatWhile do
      if (← atEnd) || (← atBlockEnd) then pure false
      else
        statement
        pure true
    lift (modify fun parser => { parser with blocks := parser.blocks - 1 })
    exit
  else
    skipBlock

/-- The statements of a block, with at most so many levels of blocks in it. -/
def blockFor : Nat → CheckedM Unit
  | 0 => blockOf unending
  | levels + 1 => blockOf (statementIn (blockFor levels))

/-- A statement, with as many levels of blocks in it as a builder ever lets a rule enter. -/
def statement : CheckedM Unit :=
  statementIn (blockFor Builder.maxDepth)

/-- A whole file. -/
def file : CheckedM Unit := do
  let file ← mark
  repeatWhile do
    if ← atEnd then pure false
    else
      statement
      pure true
  done file .file

/-! ## What suites do -/

section Rules

variable {base : Parser} {depth : Nat} {marks : List Mark} {watched : Watched}
  {block : CheckedM Unit} {block' : ParseM Unit}

theorem keeps_scope : Grammar.Keeps depth scope :=
  fun _ _ _ since => ⟨_, _, rfl, since⟩

theorem keeps_strayIndents : Grammar.Keeps depth strayIndents :=
  fun _ _ _ since => ⟨_, _, rfl, since⟩

theorem keeps_blocks : Grammar.Keeps depth blocks :=
  fun _ _ _ since => ⟨_, _, rfl, since⟩

theorem keeps_atBlockEnd : Grammar.Keeps depth atBlockEnd := by
  intro base floor parser since
  refine (Grammar.ends_atBlockEnd parser).mono ?_
  rintro _ _ ⟨rfl, -⟩
  exact since

/-- There is a scope to leave after a rule that was followed in a scope of its own. -/
theorem matches_leaveScope {parser : Parser} {change : Scope → Scope}
    (since : base.Since depth 0 parser)
    (live : Live Anywhere (parser.inScope change) depth marks watched) :
    Matches leaveScope (onScopes Scopes.pop) watched (Agrees Anywhere base depth marks) := by
  have height : 1 < watched.parser.scopes.height := by
    rw [Scopes.height, live.since.outer_inScope]
    exact Nat.succ_lt_succ (Nat.succ_pos _)
  exact .assert (decide_eq_true height)
    (matches_lifted rfl ⟨rfl, live.placed (since.leaveScope live.since) trivial rfl⟩)

theorem mirrors_within {checked : CheckedM Unit} {rule : ParseM Unit} (change : Scope → Scope)
    (mirrors : Mirrors Anywhere depth checked rule) :
    Mirrors Anywhere depth (within change checked) (Grammar.within change rule) := by
  intro base marks watched live
  have inner := (live.since.inScope change).raise (Nat.zero_le _)
  have pushed : Matches (lift (onScopes fun scopes => scopes.push (change scopes.current)))
      (onScopes fun scopes => scopes.push (change scopes.current)) watched
      (Agrees Anywhere (watched.parser.inScope change) depth marks) :=
    matches_lifted rfl ⟨rfl, live.placed inner trivial rfl⟩
  refine pushed.bind ?_
  rintro _ _ next ⟨-, live'⟩
  exact mirrors.bind live' fun _ next live' => matches_leaveScope live.since live'

theorem mirrors_colon : Mirrors Anywhere depth colon Grammar.colon := by
  refine (mirrors_matches? _).seq fun _ => .ite (.pure true) ?_
  refine (mirrors_isAt _).seq fun _ => .ite ((mirrors_missing _).seq fun _ => .pure true) ?_
  intro base marks watched live
  refine (matches_mark live).bind ?_
  rintro junk _ watched ⟨rfl, made, live, -⟩
  refine (mirrors_skipUntil _).bind live fun _ watched live => ?_
  refine (mirrors_matches? _).bind live fun found watched live => ?_
  refine .ite (fun _ => ?_) fun _ => (matches_fault live made _).answers _
  exact (mirrors_matches? _).bind live fun _ _ live => (matches_fault live made _).answers _

theorem mirrors_inlineStatement :
    Mirrors Anywhere depth inlineStatement Grammar.inlineStatement :=
  mirrors_within _ mirrors_simpleStatement

theorem mirrors_inlineSuite : Mirrors Anywhere depth inlineSuite Grammar.inlineSuite := by
  intro base marks watched live
  refine (matches_mark live).bind ?_
  rintro list _ watched ⟨rfl, made, live, -⟩
  refine matches_look live fun watched _ live => .ite (fun _ => ?_) fun _ => ?_
  · exact (mirrors_missing _).bind live fun _ _ live => (matches_done live made _).agrees
  refine mirrors_inlineStatement.bind live fun _ watched live => ?_
  refine (mirrors_repeatWhile ?_).bind live fun _ _ live => (matches_done live made _).agrees
  refine (mirrors_matches? _).seq fun _ => .ite (.pure false) ?_
  refine (mirrors_matches? _).seq fun _ => .ite (.pure false) ?_
  exact mirrors_inlineStatement.seq fun _ => .pure true

theorem mirrors_blockSuite (mirrors : Mirrors Anywhere depth block block') :
    Mirrors Anywhere depth (blockSuite block) (Grammar.blockSuite block') := by
  intro base marks watched live
  refine (matches_mark live).bind ?_
  rintro list _ watched ⟨rfl, made, live, -⟩
  refine (mirrors_matches? _).bind live fun _ watched live => .ite (fun _ => ?_) fun _ => ?_
  · refine mirrors.bind live fun _ watched live => ?_
    refine (matches_done live made _).bind fun _ _ watched live => ?_
    exact (mirrors_matches? _).bind live fun _ _ live => .pure ⟨rfl, live⟩
  · refine (mirrors_missing _).bind live fun _ watched live => ?_
    exact (matches_done live made _).agrees

theorem mirrors_colonAndSuite (mirrors : Mirrors Anywhere depth block block') :
    Mirrors Anywhere depth (colonAndSuite block) (Grammar.colonAndSuite block') := by
  refine mirrors_colon.seq fun _ => .ite ?_ (mirrors_emptyNode _)
  exact (mirrors_matches? _).seq fun _ => .ite (mirrors_blockSuite mirrors) mirrors_inlineSuite

/-! ## What compound statements do -/

theorem mirrors_branch (mirrors : Mirrors Anywhere depth block block') :
    Mirrors Anywhere depth (branch block) (Grammar.branch block') :=
  mirrors_advance.seq fun _ => (mirrors_requireTest (mirrored_nested depth)).seq fun _ =>
    mirrors_colonAndSuite mirrors

theorem mirrors_ifStatement (mirrors : Mirrors Anywhere depth block block') :
    MirrorsAt Anywhere depth (.reserved .ifWord) (ifStatement block)
      (Grammar.ifStatement block') := by
  intro base marks watched live seen
  refine .assertAt seen ((matches_mark live).bind ?_)
  rintro statement _ watched ⟨rfl, made, live, -⟩
  refine (mirrors_branch mirrors).bind live fun _ watched live => ?_
  refine (mirrors_repeatWhile ?_).bind live fun _ watched live => ?_
  · refine (mirrors_isAtWord _).seq fun _ => .ite ?_ (.pure false)
    exact (mirrors_branch mirrors).seq fun _ => .pure true
  refine (mirrors_matches? _).bind live fun _ watched live => .ite (fun _ => ?_) fun _ => ?_
  · exact (mirrors_colonAndSuite mirrors).bind live fun _ _ live => (matches_done live made _).agrees
  · exact (matches_done live made _).agrees

theorem mirrors_forStatement (mirrors : Mirrors Anywhere depth block block') :
    MirrorsAt Anywhere depth (.reserved .forWord) (forStatement block)
      (Grammar.forStatement block') := by
  intro base marks watched live seen
  refine .assertAt seen ((matches_mark live).bind ?_)
  rintro statement _ watched ⟨rfl, made, live, -⟩
  refine mirrors_advance.bind live fun _ watched live => ?_
  refine (mirrors_targets (mirrored_nested depth)).bind live fun _ watched live => ?_
  refine (mirrors_expect _ _).bind live fun _ watched live => ?_
  refine (mirrors_require _ (mirrors_expression depth)).bind live fun _ watched live => ?_
  refine (mirrors_colonAndSuite mirrors).bind live fun _ watched live => ?_
  exact (matches_done live made _).agrees

theorem mirrors_functionDeclaration (mirrors : Mirrors Anywhere depth block block') :
    MirrorsAt Anywhere depth (.reserved .defWord) (functionDeclaration block)
      (Grammar.functionDeclaration block') := by
  intro base marks watched live seen
  refine (matches_mark live).bind ?_
  rintro declaration _ watched ⟨rfl, made, live, view, -⟩
  refine .assertAt ((congrFun view 0).trans seen) ?_
  refine mirrors_advance.bind live fun _ watched live => ?_
  refine (mirrors_expect _ _).bind live fun _ watched live => ?_
  have body {watched : Watched} (live : Live Anywhere base depth (declaration :: marks) watched) :
      Matches (do
        within Scope.withFunction (colonAndSuite block)
        done declaration .functionDeclaration) (do
        Grammar.within Scope.withFunction (Grammar.colonAndSuite block')
        Grammar.done declaration.marker .functionDeclaration) watched
        (Agrees Anywhere base depth marks) := by
    refine (mirrors_within _ (mirrors_colonAndSuite mirrors)).bind live fun _ watched live => ?_
    exact (matches_done live made _).agrees
  refine matches_isAt live fun next same live => .ite (fun isAt => ?_) fun _ => ?_
  · have seen := same ▸ Grammar.current?_of_isAt isAt
    refine (mirrors_parameterList (mirrored_nested depth) _ _ next live seen).bind ?_
    exact fun _ _ _ holds => body holds.2
  · refine (mirrors_missing _).bind live fun _ watched live => ?_
    exact (mirrors_emptyNode _).bind live fun _ _ live => body live

/-- Saying that something is missing leaves the next token where it is. -/
theorem mirrors_compoundStatement {kind : Kind} {checked : CheckedM Unit} {rule : ParseM Unit}
    (mirrors : MirrorsAt Anywhere depth kind checked rule) (afterSemicolon : Bool) :
    MirrorsAt Anywhere depth kind (compoundStatement afterSemicolon checked)
      (Grammar.compoundStatement afterSemicolon rule) := by
  intro base marks watched live seen
  cases afterSemicolon with
  | false => exact mirrors base marks watched live seen
  | true =>
      have reported (message : String) : Matches (lift (missing message)) (missing message) watched
          fun _ _ next => Live Anywhere base depth marks next ∧
            next.parser.builder.current? = some kind :=
        matches_lifted rfl ⟨live.lifted
          (live.since.self.change (live.since.self.builder.missing message) (Nat.le_refl _)) trivial,
          seen⟩
      refine (reported _).bind ?_
      rintro _ _ next ⟨live, seen⟩
      exact mirrors base marks next live seen

/-! ## What statements do -/

theorem mirrors_statementHere (mirrors : Mirrors Anywhere depth block block') :
    Mirrors Anywhere depth (statementHere block) (Grammar.statementHere block') := by
  refine (mirrors_keeps keeps_scope).seq fun scope => ?_
  refine (mirrors_keeps (Grammar.keeps_setAfterSemicolon false)).seq fun _ => ?_
  intro base marks watched live
  refine matches_look live fun next same live => ?_
  cases seen : watched.parser.builder.current? with
  | none => exact .pure ⟨rfl, live⟩
  | some kind =>
      rw [← same] at seen
      cases kind with
      | dedent =>
          refine (mirrors_keeps keeps_strayIndents).bind live fun _ next live => ?_
          refine .ite (fun _ => ?_) fun _ => ?_
          · refine (mirrors_keeps (keeps_astray (· - 1))).bind live fun _ next live => ?_
            exact mirrors_advance base marks next live
          · refine (mirrors_keeps keeps_blocks).bind live fun _ next live => ?_
            exact .ite (fun _ => mirrors_simpleStatement base marks next live)
              fun _ => .pure ⟨rfl, live⟩
      | reserved name =>
          cases name with
          | ifWord =>
              exact mirrors_compoundStatement (mirrors_ifStatement mirrors) _ base marks next live seen
          | forWord =>
              exact mirrors_compoundStatement (mirrors_forStatement mirrors) _ base marks next live seen
          | defWord =>
              exact mirrors_compoundStatement (mirrors_functionDeclaration mirrors) _ base marks next
                live seen
          | _ => exact mirrors_simpleStatement base marks next live
      | _ => exact mirrors_simpleStatement base marks next live

theorem mirrors_statementIn (mirrors : Mirrors Anywhere depth block block') :
    Mirrors Anywhere depth (statementIn block) (Grammar.statementIn block') :=
  (mirrors_repeatWhile (mirrors_matches? _)).seq fun _ => mirrors_statementHere mirrors

theorem mirrors_skipBlock : Mirrors Anywhere depth skipBlock Grammar.skipBlock := by
  intro base marks watched live
  refine (matches_mark live).bind ?_
  rintro junk _ watched ⟨rfl, made, live, -⟩
  refine (mirrors_keeps Grammar.keeps_skipBlockRounds).bind live fun _ watched live => ?_
  exact (matches_fault live made _).agrees

/-- The statements of a block are followed one level deeper, in one more block. -/
theorem mirrors_blockOf {statement : CheckedM Unit} {statement' : ParseM Unit}
    (mirrors : depth < Builder.maxDepth → Mirrors Anywhere (depth + 1) statement statement') :
    Mirrors Anywhere depth (blockOf statement) (Grammar.blockOf statement') := by
  intro base marks watched live
  by_cases shallow : depth < Builder.maxDepth
  · refine (matches_enter live shallow).bind ?_
    rintro _ _ outer ⟨rfl, rfl, -, live'⟩
    have opened : Matches
        (lift (modify fun parser => { parser with blocks := parser.blocks + 1 }))
        (modify fun parser => { parser with blocks := parser.blocks + 1 }) outer
        (Agrees Anywhere outer.parser.inBlock (depth + 1) marks) :=
      matches_lifted rfl ⟨rfl, live'.placed (live'.since.inBlock.raise (Nat.zero_le _)) trivial rfl⟩
    refine opened.bind ?_
    rintro _ _ next ⟨-, inner⟩
    refine (mirrors_repeatWhile ?_).bind inner fun _ next inner => ?_
    · refine (mirrors_look _).seq fun _ => (mirrors_keeps keeps_atBlockEnd).seq fun _ => ?_
      exact .ite (.pure false) ((mirrors shallow).seq fun _ => .pure true)
    have closed : Matches
        (lift (modify fun parser => { parser with blocks := parser.blocks - 1 }))
        (modify fun parser => { parser with blocks := parser.blocks - 1 }) next
        (Agrees Anywhere (base.withDepth (depth + 1)) (depth + 1) marks) :=
      matches_lifted rfl ⟨rfl, inner.placed (live'.since.trans inner.since.leaveBlock) trivial rfl⟩
    refine closed.bind ?_
    rintro _ _ next ⟨-, live'⟩
    exact (matches_exit live' live.since.atDepth).agrees
  · refine (matches_enter_of_le live (Nat.not_lt.1 shallow)).bind ?_
    rintro _ _ next ⟨rfl, rfl, live⟩
    exact mirrors_skipBlock base marks next live

end Rules

theorem mirrors_blockFor (levels : Nat) {depth : Nat}
    (enough : Builder.maxDepth ≤ levels + depth) :
    Mirrors Anywhere depth (blockFor levels) (Grammar.blockFor levels) := by
  induction levels generalizing depth with
  | zero =>
      refine mirrors_blockOf fun shallow => ?_
      omega
  | succ levels ih => exact mirrors_blockOf fun _ => mirrors_statementIn (ih (by omega))

theorem mirrors_statement (depth : Nat) : Mirrors Anywhere depth statement Grammar.statement :=
  mirrors_statementIn (mirrors_blockFor Builder.maxDepth (Nat.le_add_right _ _))

/-- From the beginning of a text on, none of the assertions of a file fails. -/
theorem mirrors_file (depth : Nat) : Mirrors Anywhere depth file Grammar.file := by
  intro base marks watched live
  refine (matches_mark live).bind ?_
  rintro whole _ watched ⟨rfl, made, live, -⟩
  refine (mirrors_repeatWhile ?_).bind live fun _ watched live => ?_
  · refine (mirrors_look _).seq fun _ => .ite (.pure false) ?_
    exact (mirrors_statement depth).seq fun _ => .pure true
  · exact (matches_done live made _).agrees

end StarlarkSyntax.Checked
