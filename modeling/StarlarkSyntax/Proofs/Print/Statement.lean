import StarlarkSyntax.Proofs.Print.Simple
/-!
# Reading statements with blocks

A block is read from its indent to its dedent. While it is read the rules stand one level deeper and
in a block more, and in a function if it is the body of one; none of this is left behind. After the
last branch of an `if` something must follow that is no other branch of it (`NoBranch`); whatever
follows a statement that was printed is none.
-/

set_option autoImplicit false

namespace StarlarkSyntax

open Layout (Piece)
open Stage (Inside Adds)

/-! ## What is inside a statement -/

/-- The statements in a block. -/
def Block.parts : Block → List Stmt
  | .mk _ _ first others => first :: others

def Branch.parts : Branch → List Stmt
  | .mk _ body => body.parts

namespace Stmt

/-- The statements right inside a statement. -/
def parts : Stmt → List Stmt
  | simple _ => []
  | branching first others otherwise? =>
    first.parts ++ others.flatMap Branch.parts ++ otherwise?.toList.flatMap Block.parts
  | looping _ _ body | function _ _ body => body.parts

end Stmt

theorem Block.sizeOf_lt (block : Block) (part : Stmt) (mem : part ∈ block.parts) :
    sizeOf part < sizeOf block := by
  obtain ⟨width, positive, first, others⟩ := block
  rw [mk.sizeOf_spec]
  rcases List.mem_cons.1 mem with rfl | mem
  · omega
  · have := List.sizeOf_lt_of_mem mem
    omega

theorem Branch.sizeOf_lt (branch : Branch) (part : Stmt) (mem : part ∈ branch.parts) :
    sizeOf part < sizeOf branch := by
  obtain ⟨condition, body⟩ := branch
  have := body.sizeOf_lt part mem
  rw [mk.sizeOf_spec]
  omega

/-- What stands inside a statement is smaller. -/
theorem Stmt.sizeOf_lt (statement part : Stmt) (mem : part ∈ statement.parts) :
    sizeOf part < sizeOf statement := by
  cases statement with
  | simple => cases mem
  | branching first others otherwise? =>
      simp only [parts, List.mem_append] at mem
      rw [branching.sizeOf_spec]
      rcases mem with (mem | mem) | mem
      · have := first.sizeOf_lt part mem
        omega
      · have := sizeOf_lt_of_mem_flatMap Branch.sizeOf_lt mem
        omega
      · obtain ⟨body, mem, mem'⟩ := List.mem_flatMap.1 mem
        have := body.sizeOf_lt part mem'
        rw [Option.mem_toList.1 mem, Option.some.sizeOf_spec]
        omega
  | looping targets range body =>
      have := body.sizeOf_lt part mem
      rw [looping.sizeOf_spec]
      omega
  | function name parameters body =>
      have := body.sizeOf_lt part mem
      rw [function.sizeOf_spec]
      omega

/-- Induction over the statements right inside a statement. -/
theorem Stmt.induction {holds : Stmt → Prop}
    (step : ∀ statement : Stmt, (∀ part ∈ statement.parts, holds part) → holds statement)
    (statement : Stmt) : holds statement :=
  step statement fun part _ => induction step part
termination_by sizeOf statement
decreasing_by exact statement.sizeOf_lt part ‹_›

/-! ## First tokens -/

/-- Does a token begin a simple statement? -/
def beginsSimple (kind : Kind) : Bool :=
  match kind with
  | .reserved .passWord | .reserved .breakWord | .reserved .continueWord | .reserved .returnWord
  | .reserved .loadWord => true
  | kind => 0 < beginning kind

/-- Does a token begin a statement? -/
def beginsStatement (kind : Kind) : Bool :=
  match kind with
  | .reserved .ifWord | .reserved .forWord | .reserved .defWord => true
  | kind => beginsSimple kind

/-- The next token is no word of a branch. -/
def NoBranch (left : List Piece) : Prop :=
  nextKind left ≠ some (.reserved .elifWord) ∧ nextKind left ≠ some (.reserved .elseWord)

/-- The first of some tokens is one of those that are asked for. -/
def Begins (test : Kind → Bool) (leaves : List Piece) : Prop :=
  ∃ piece more, leaves = piece :: more ∧ test piece.1 = true

namespace Begins

variable {test : Kind → Bool} {leaves : List Piece}

theorem append (begins : Begins test leaves) (left : List Piece) : Begins test (leaves ++ left) := by
  obtain ⟨piece, more, rfl, begins⟩ := begins
  exact ⟨piece, more ++ left, rfl, begins⟩

theorem mono {test' : Kind → Bool} (begins : Begins test leaves)
    (weaker : ∀ kind, test kind = true → test' kind = true) : Begins test' leaves := by
  obtain ⟨piece, more, rfl, begins⟩ := begins
  exact ⟨piece, more, rfl, weaker _ begins⟩

theorem ne (begins : Begins test leaves) {kind : Kind} (other : test kind = false) :
    nextKind leaves ≠ some kind := by
  obtain ⟨piece, more, rfl, begins⟩ := begins
  rw [nextKind_cons]
  intro same
  rw [Option.some.inj same, other] at begins
  cases begins

theorem isEmpty (begins : Begins test leaves) : leaves.isEmpty = false := by
  obtain ⟨piece, more, rfl, -⟩ := begins
  rfl

/-- No statement begins with a word of a branch. -/
theorem noBranch (begins : Begins beginsStatement leaves) : NoBranch leaves :=
  ⟨begins.ne rfl, begins.ne rfl⟩

end Begins

theorem beginsStatement_of_beginsSimple {kind : Kind} (simple : beginsSimple kind = true) :
    beginsStatement kind = true := by
  unfold beginsStatement
  split <;> first | rfl | exact simple

theorem SimpleStmt.begins (statement : SimpleStmt) : Begins beginsSimple statement.shape.leaves := by
  have value (value : Expr) (target : Bool) :
      Begins beginsSimple (value.shape target .alone).leaves := by
    obtain ⟨piece, more, leaves, begins, -⟩ := value.starts target .alone
    refine ⟨piece, more, leaves, ?_⟩
    generalize piece.1 = kind at begins
    unfold beginsSimple
    split
    all_goals first | rfl | exact decide_eq_true begins
  cases statement with
  | single word => cases word <;> exact ⟨_, _, rfl, rfl⟩
  | returning | loading => exact ⟨_, _, rfl, rfl⟩
  | expression first | assignment first | augmented first =>
      simp only [shape, parts, Shape.leaves_node, Shape.leavesAll_append, Shape.leavesAll_cons,
        List.flatMap_cons, List.append_assoc]
      exact (value first _).append _

theorem Stmt.begins (statement : Stmt) : Begins beginsStatement statement.shape.leaves := by
  cases statement with
  | simple statement =>
      rw [shape]
      exact statement.begins.mono fun _ => beginsStatement_of_beginsSimple
  | branching first others otherwise? =>
      obtain ⟨condition, body⟩ := first
      rw [shape, Branch.shapes]
      exact ⟨_, _, rfl, rfl⟩
  | looping | function =>
      rw [shape]
      exact ⟨_, _, rfl, rfl⟩

namespace Grammar

variable {lexed : Lexed} {stage start : Stage lexed} {left : List Piece} {made : List Shape}
  {marker : Marker} {block : ParseM Unit} {n : Nat}

/-! ## Which statement -/

theorem reaches_scope {post : Scope → Stage lexed → Prop}
    (holds : post stage.parser.scopes.current stage) : Reaches scope stage post :=
  ⟨_, stage, rfl, holds⟩

/-- No end of a statement comes first. -/
theorem reaches_statementIn {post : Unit → Stage lexed → Prop} (rest : stage.rest = left)
    (notBreak : (nextKind left == some .statementBreak) = false)
    (reached : Reaches (statementHere block) stage post) : Reaches (statementIn block) stage post :=
  reaches_loop (Reaches.bind (reaches_matches_not rest notBreak (reaches_pure reached)))

theorem reaches_statementHere_simple {post : Unit → Stage lexed → Prop}
    (settled : stage.place.Settled) (rest : stage.rest = left) (begins : Begins beginsSimple left)
    (reached : Reaches simpleStatement stage post) : Reaches (statementHere block) stage post := by
  obtain ⟨piece, more, rfl, begins⟩ := begins
  refine Reaches.bind (reaches_scope ?_)
  refine Reaches.bind (reaches_setAfterSemicolon settled ?_)
  refine Reaches.bind (reaches_current? rest ?_)
  rw [nextKind_cons]
  generalize piece.1 = kind at begins
  cases kind with
  | reserved word => cases word <;> first | exact reached | cases begins
  | dedent => cases begins
  | _ => exact reached

/-- The words of statements with blocks. -/
theorem reaches_statementHere {rule : ParseM Unit} {post : Unit → Stage lexed → Prop}
    (settled : stage.place.Settled) {piece : Piece} (rest : stage.rest = piece :: left)
    (chosen : (piece.1 = .reserved .ifWord ∧ rule = ifStatement block) ∨
      (piece.1 = .reserved .forWord ∧ rule = forStatement block) ∨
      (piece.1 = .reserved .defWord ∧ rule = functionDeclaration block))
    (reached : Reaches rule stage post) : Reaches (statementHere block) stage post := by
  refine Reaches.bind (reaches_scope ?_)
  refine Reaches.bind (reaches_setAfterSemicolon settled ?_)
  refine Reaches.bind (reaches_current? rest ?_)
  have onOwnLine : stage.parser.scopes.current.afterSemicolon = false := settled.onOwnLine
  rw [onOwnLine, nextKind_cons]
  rcases chosen with ⟨next, rfl⟩ | ⟨next, rfl⟩ | ⟨next, rfl⟩ <;> rw [next] <;> exact reached

/-! ## Blocks -/

/-- The rule for the next statement of a block. -/
def nextInBlock (statement : ParseM Unit) : ParseM Bool := do
  if (← atEnd) || (← atBlockEnd) then pure false
  else
    statement
    pure true

/-- The same stage in one more block. -/
def inBlock (stage : Stage lexed) : Stage lexed :=
  stage.placed { stage.place with
    depth := stage.place.depth + 1
    blocks := stage.place.blocks + 1 }

theorem gives_blockOf {statement : ParseM Unit}
    (deep : stage.place.depth + 1 ≤ Builder.maxDepth)
    (gives : Gives (repeatWhile (nextInBlock statement)) (inBlock stage) () made) :
    Gives (blockOf statement) stage () made := by
  obtain ⟨_, after, ran, -, adds⟩ := gives
  refine ⟨(), after.placed stage.place, ?_, rfl, adds.placed⟩
  have shallow : ¬Builder.maxDepth ≤ stage.parser.builder.depth := Nat.not_le.2 deep
  have entered : withBuilder Builder.enter stage.parser = some (true,
      { stage.parser with builder := { stage.parser.builder with depth := stage.place.depth + 1 } }) := by
    unfold withBuilder Builder.enter
    dsimp only
    rw [if_neg shallow]
    rfl
  have place : after.place = (inBlock stage).place := adds.later.place
  have blocks : after.parser.blocks - 1 = stage.place.blocks := by
    rw [show after.parser.blocks = stage.place.blocks + 1 from congrArg Place.blocks place]
    rfl
  have leave : onBuilder Builder.exit { after.parser with blocks := after.parser.blocks - 1 } =
      some ((), (after.placed stage.place).parser) := by
    rw [blocks]
    show some ((), Parser.mk after.parser.builder.exit after.place.scopes stage.place.blocks
      after.place.strayIndents) = _
    rw [place, Builder.exit, show after.parser.builder.depth = stage.place.depth + 1 from
      congrArg Place.depth place]
    rfl
  unfold blockOf
  rw [run_bind, entered, Option.bind_some, if_pos rfl, run_bind]
  show Option.bind (some ((), (inBlock stage).parser)) _ = _
  rw [Option.bind_some, run_bind]
  show Option.bind (repeatWhile (nextInBlock statement) (inBlock stage).parser) _ = _
  rw [ran, Option.bind_some, run_bind]
  exact leave

theorem reaches_atBlockEnd {post : Bool → Stage lexed → Prop} {answer : Bool}
    (settled : stage.place.Settled) (rest : stage.rest = left)
    (is : (nextKind left == some .dedent) = answer) (holds : post answer stage) :
    Reaches atBlockEnd stage post := by
  refine Reaches.bind (reaches_isAt rest is ?_)
  refine ⟨answer, stage, ?_, holds⟩
  show some ((answer && decide (stage.place.strayIndents = 0)), stage.parser) = _
  rw [settled.noStray, decide_eq_true rfl, Bool.and_true]

/-- The rule reads a statement where no other branch of it follows. -/
def ReadsStatement (rule : ParseM Unit) (statement : Stmt) : Prop :=
  ∀ ⦃lexed : Lexed⦄ (stage : Stage lexed) (left : List Piece), stage.place.Settled →
    stage.rest = statement.shape.leaves ++ left → NoBranch left →
    stage.place.depth + statement.nesting ≤ Builder.maxDepth →
    Gives rule stage () [statement.shape]

/-- The statements of a block, up to its dedent. -/
theorem gives_statements {rule : ParseM Unit} {statements : List Stmt}
    (settled : stage.place.Settled) (reads : ∀ statement ∈ statements, ReadsStatement rule statement)
    (rest : stage.rest = Shape.leavesAll (statements.map Stmt.shape) ++
      Layout.mark .dedent :: left)
    (deep : ∀ statement ∈ statements,
      stage.place.depth + statement.nesting ≤ Builder.maxDepth) :
    Gives (repeatWhile (nextInBlock rule)) stage () (statements.map Stmt.shape) := by
  rw [List.map_eq_flatMap] at rest ⊢
  have each : ∀ statement ∈ statements, ∀ (here : Stage lexed) left, here.place = stage.place →
      here.rest = Shape.leavesAll [statement.shape] ++ left → NoBranch left →
      Gives (nextInBlock rule) here true [statement.shape] := by
    intro statement mem here left same rest noBranch
    rw [Shape.leavesAll_cons, Shape.leavesAll_nil, List.append_nil] at rest
    have begins := statement.begins.append left
    have settled : here.place.Settled := by rw [same]; exact settled
    refine Reaches.bind (reaches_atEnd rest begins.isEmpty ?_)
    refine Reaches.bind (reaches_atBlockEnd settled rest (beq_eq_false_iff_ne.2 (begins.ne rfl)) ?_)
    refine (reads statement mem here left settled rest noBranch (by
      rw [same]; exact deep statement mem)).andThen fun after adds => reaches_pure ⟨rfl, adds⟩
  refine gives_repeatWhile statements rfl rest (fun statement _ left => ?_) (by exact ⟨nofun, nofun⟩)
    each fun here same rest => ?_
  · rw [Shape.leavesAll_cons, Shape.leavesAll_nil, List.append_nil]
    exact (statement.begins.append left).noBranch
  · refine Reaches.bind (reaches_atEnd rest rfl ?_)
    refine Reaches.bind (reaches_atBlockEnd (by rw [same]; exact settled) rest rfl ?_)
    exact reaches_pure ⟨rfl, .refl here⟩

/-! ## Suites -/

/-- A block is read with the colon before it, whatever follows it. -/
theorem gives_colonAndSuite {statement : ParseM Unit} (settled : stage.place.Settled) (body : Block)
    (reads : ∀ part ∈ body.parts, ReadsStatement statement part)
    (rest : stage.rest = Shape.leavesAll body.shapes ++ left)
    (deep : stage.place.depth + body.nesting ≤ Builder.maxDepth) :
    Gives (colonAndSuite (blockOf statement)) stage () body.shapes := by
  obtain ⟨width, positive, first, others⟩ := body
  rw [Block.shapes] at rest ⊢
  rw [Block.nesting] at deep
  have rest : stage.rest = spelled .colon :: Layout.mark .statementBreak :: Layout.mark .indent ::
      (Shape.leavesAll ((first :: others).map Stmt.shape) ++ Layout.mark .dedent :: left) := by
    simpa using rest
  refine Reaches.bind (Reaches.bind (reaches_matches rest rfl fun opened adds rest =>
    reaches_pure ?_))
  refine Reaches.bind (reaches_matches rest rfl fun ended adds' rest => ?_)
  have adds := adds.trans adds'
  refine Reaches.bind (reaches_mark fun list marked inside same => ?_)
  refine Reaches.bind (reaches_matches (same.trans rest) rfl fun indented adds' rest => ?_)
  have inside := inside.adds adds'
  have place : indented.place = stage.place := inside.later.place.trans adds.later.place
  have gives : Gives (repeatWhile (nextInBlock statement)) (inBlock indented) ()
      ((first :: others).map Stmt.shape) := by
    refine gives_statements ?_ reads rest fun part mem => ?_
    · exact ⟨by rw [← settled.onOwnLine, ← place]; rfl, by rw [← settled.noStray, ← place]; rfl⟩
    · show indented.place.depth + 1 + _ ≤ _
      rw [place]
      have : part.nesting ≤ most ((first :: others).map fun statement => statement.nesting) :=
        le_most (List.mem_map_of_mem mem)
      rw [List.map_cons] at this
      omega
  refine (gives_blockOf (by rw [place]; omega) gives).bind rest fun filled adds' rest => ?_
  refine Reaches.bind (reaches_done (inside.adds adds') fun listed adds' same => ?_)
  have adds := adds.trans adds'
  refine Reaches.bind (reaches_matches (same.trans rest) rfl fun after adds' _ => ?_)
  refine reaches_pure ⟨rfl, ?_⟩
  simpa [Shape.ofKind] using adds.trans adds'

/-! ## Compound statements -/

/-- A condition with its block, whatever follows them. -/
theorem gives_branch {statement : ParseM Unit} (settled : stage.place.Settled) (branch : Branch)
    (word : Reserved) (reads : ∀ part ∈ branch.parts, ReadsStatement statement part)
    (rest : stage.rest = Shape.leavesAll (branch.shapes word) ++ left)
    (deep : stage.place.depth + branch.nesting ≤ Builder.maxDepth) :
    Gives (Grammar.branch (blockOf statement)) stage () (branch.shapes word) := by
  obtain ⟨condition, body⟩ := branch
  rw [Branch.shapes] at rest ⊢
  rw [Branch.nesting] at deep
  have rest : stage.rest = spelled (.reserved word) :: ((condition.shape false .test).leaves ++
      (Shape.leavesAll body.shapes ++ left)) := by simpa using rest
  obtain ⟨more, colon⟩ : ∃ more, Shape.leavesAll body.shapes = spelled .colon :: more := by
    obtain ⟨width, positive, first, others⟩ := body
    rw [Block.shapes]
    exact ⟨_, rfl⟩
  have test : Grammar.Reads (test nested false) _ _ _ :=
    condition.readable.readIn .test Builder.maxDepth false (by omega)
  refine Reaches.bind (reaches_advance rest fun passed adds rest => ?_)
  refine test.require rest (by rw [colon]; exact Nat.one_pos) (by rw [adds.later.place]; omega)
    fun read adds' rest => ?_
  have adds := adds.trans adds'
  refine (gives_colonAndSuite (by rw [adds.later.place]; exact settled) body reads rest
    (by rw [adds.later.place]; omega)).mono fun _ after holds => ⟨rfl, adds.trans holds.2⟩

/-- The rule for the next branch of an `if`. -/
def nextBranch (block : ParseM Unit) : ParseM Bool := do
  if ← isAtWord .elifWord then
    Grammar.branch block
    pure true
  else pure false

theorem gives_ifStatement {statement : ParseM Unit} (settled : stage.place.Settled) (first : Branch)
    (others : List Branch) (otherwise? : Option Block)
    (reads : ∀ part ∈ (Stmt.branching first others otherwise?).parts, ReadsStatement statement part)
    (rest : stage.rest = (Stmt.branching first others otherwise?).shape.leaves ++ left)
    (noBranch : NoBranch left)
    (deep : stage.place.depth + (Stmt.branching first others otherwise?).nesting ≤
      Builder.maxDepth) :
    Gives (ifStatement (blockOf statement)) stage ()
      [(Stmt.branching first others otherwise?).shape] := by
  rw [Stmt.shape] at rest ⊢
  rw [Stmt.nesting] at deep
  have deep (n : Nat) (mem : n ∈ first.nesting :: (others.map fun branch => branch.nesting) ++
      [otherwiseNesting otherwise?]) : stage.place.depth + n ≤ Builder.maxDepth :=
    Nat.le_trans (Nat.add_le_add_left (le_most mem) _) deep
  have rest : stage.rest = Shape.leavesAll (first.shapes .ifWord) ++
      (Shape.leavesAll (others.flatMap fun branch => branch.shapes .elifWord) ++
        (Shape.leavesAll (otherwiseShapes otherwise?) ++ left)) := by
    simpa only [Shape.leaves_node, Shape.leavesAll_append, List.append_assoc] using rest
  refine Reaches.bind (reaches_mark fun marker marked inside same => ?_)
  have settled' : marked.place.Settled := by rw [inside.later.place]; exact settled
  refine (gives_branch settled' first .ifWord (fun part mem => reads part (by simp [Stmt.parts, mem]))
    (same.trans rest) (by rw [inside.later.place]; exact deep _ (by simp))).bind (same.trans rest)
    fun began adds rest => ?_
  have inside := inside.adds adds
  have each : ∀ branch ∈ others, ∀ (here : Stage lexed) left, here.place = stage.place →
      here.rest = Shape.leavesAll (branch.shapes .elifWord) ++ left → True →
      Gives (nextBranch (blockOf statement)) here true (branch.shapes .elifWord) := by
    intro branch mem here left same rest _
    have reads : ∀ part ∈ branch.parts, ReadsStatement statement part := fun part mem' =>
      reads part (by
        simp only [Stmt.parts, List.mem_append, List.mem_flatMap]
        exact .inl (.inr ⟨branch, mem, mem'⟩))
    refine Reaches.bind (reaches_isAt rest (by cases branch; rw [Branch.shapes]; rfl) ?_)
    refine (gives_branch (by rw [same]; exact settled) branch .elifWord reads rest (by
      rw [same]; exact deep _ (by simp; exact .inr (.inl ⟨branch, mem, rfl⟩)))).andThen
      fun after adds => reaches_pure ⟨rfl, adds⟩
  have noElif : (nextKind (Shape.leavesAll (otherwiseShapes otherwise?) ++ left) ==
      some (.reserved .elifWord)) = false := by
    rw [beq_eq_false_iff_ne]
    cases otherwise? with
    | none => rw [otherwiseShapes]; exact noBranch.1
    | some body => rw [otherwiseShapes]; rintro ⟨⟩
  refine (gives_repeatWhile others inside.later.place rest (fun _ _ _ => by trivial) (by trivial) each
    fun here _ rest => Reaches.bind (reaches_isAt rest noElif (reaches_pure ⟨rfl, .refl here⟩))).bind
    rest fun chosen adds rest => ?_
  have inside := inside.adds adds
  cases otherwise? with
  | none =>
      rw [otherwiseShapes] at rest ⊢
      refine Reaches.bind (reaches_matches_not rest (beq_eq_false_iff_ne.2 noBranch.2) ?_)
      refine reaches_done inside fun after adds _ => ⟨rfl, ?_⟩
      simpa using adds
  | some body =>
      rw [otherwiseShapes] at rest ⊢
      refine Reaches.bind (reaches_matches rest rfl fun passed adds rest => ?_)
      have inside := inside.adds adds
      have settled : passed.place.Settled := by rw [inside.later.place]; exact settled
      refine (gives_colonAndSuite settled body (fun part mem => reads part (by simp [Stmt.parts, mem]))
        rest (by
          rw [inside.later.place]
          exact deep _ (by simp [otherwiseNesting]))).bind rest fun read adds _ => ?_
      refine reaches_done (inside.adds adds) fun after adds _ => ⟨rfl, ?_⟩
      simpa [Shape.ofKind] using adds

theorem gives_forStatement {statement : ParseM Unit} (settled : stage.place.Settled)
    (targets range : Expr) (body : Block)
    (reads : ∀ part ∈ body.parts, ReadsStatement statement part)
    (rest : stage.rest = (Stmt.looping targets range body).shape.leaves ++ left)
    (deep : stage.place.depth + (Stmt.looping targets range body).nesting ≤ Builder.maxDepth) :
    Gives (forStatement (blockOf statement)) stage () [(Stmt.looping targets range body).shape] := by
  rw [Stmt.shape] at rest ⊢
  rw [Stmt.nesting] at deep
  have deep (n : Nat) (mem : n ∈ [targets.nesting .targets, range.nesting .alone, body.nesting]) :
      stage.place.depth + n ≤ Builder.maxDepth :=
    Nat.le_trans (Nat.add_le_add_left (le_most mem) _) deep
  have deepTargets := deep (targets.nesting .targets) (by simp)
  have deepRange := deep (range.nesting .alone) (by simp)
  have rest : stage.rest = spelled (.reserved .forWord) :: ((targets.shape true .targets).leaves ++
      spelled (.reserved .inWord) :: ((range.shape false .alone).leaves ++
        (Shape.leavesAll body.shapes ++ left))) := by simpa using rest
  have ends (left : List Piece) : EndsItems 1 (Shape.leavesAll body.shapes ++ left) := by
    obtain ⟨width, positive, first, others⟩ := body
    rw [Block.shapes]
    exact ends_colon _
  have readsTargets := targets.readable.readIn .targets Builder.maxDepth true (by omega) rfl
  refine Reaches.bind (reaches_mark fun marker marked inside same => ?_)
  refine Reaches.bind (reaches_advance (same.trans rest) fun passed adds rest => ?_)
  have inside := inside.adds adds
  refine (readsTargets passed _ rest (endsItems_in _) (by
    rw [inside.later.place]; exact deepTargets)).bindShape rest fun named adds rest => ?_
  have inside := inside.adds adds
  refine Reaches.bind (reaches_expect rest rfl fun passed adds rest => ?_)
  have inside := inside.adds adds
  refine (reads_value range false (by omega)).require rest (ends left) (by
    rw [inside.later.place]; exact deepRange) fun read adds rest => ?_
  have inside := inside.adds adds
  refine (gives_colonAndSuite (by rw [inside.later.place]; exact settled) body reads rest (by
    rw [inside.later.place]; exact deep _ (by simp))).bind rest fun filled adds _ => ?_
  refine reaches_done (inside.adds adds) fun after adds _ => ⟨rfl, ?_⟩
  simpa [Shape.ofKind] using adds

/-- The parameters of a function with their parentheses. -/
theorem gives_parameterList {levels : Nat} {shapes : List Shape}
    (items : ∀ shape ∈ shapes, IsParameter nested rpar levels shape)
    (rest : stage.rest = spelled lpar :: (Shape.leavesAll (Shape.withCommas shapes) ++
      spelled rpar :: left)) (deep : stage.place.depth + levels ≤ Builder.maxDepth) :
    Gives (parameterList nested) stage ()
      [.node .parameterList none (.ofKind lpar :: Shape.withCommas shapes ++ [.ofKind rpar])] := by
  refine Reaches.bind (reaches_mark fun marker marked inside same => ?_)
  refine Reaches.bind (reaches_advance (same.trans rest) fun passed adds rest => ?_)
  have inside := inside.adds adds
  refine (gives_parameters (show rpar ≠ .comma from nofun) items rest (by rw [inside.later.place]; exact deep)).bind rest
    fun middle adds rest => ?_
  have inside := inside.adds adds
  refine Reaches.bind (reaches_expect rest rfl fun closed adds _ => ?_)
  refine reaches_done (inside.adds adds) fun after adds _ => ⟨rfl, ?_⟩
  simpa [Shape.ofKind] using adds

/-- The same stage in the body of a function. -/
def inFunction (stage : Stage lexed) : Stage lexed :=
  stage.placed { stage.place with
    scopes := stage.place.scopes.push stage.place.scopes.current.withFunction }

/-- A scope is left as it was entered. -/
theorem gives_withinFunction {rule : ParseM Unit} (gives : Gives rule (inFunction stage) () made) :
    Gives (within Scope.withFunction rule) stage () made := by
  obtain ⟨_, after, ran, -, adds⟩ := gives
  refine ⟨(), after.placed stage.place, ?_, rfl, adds.placed⟩
  have place : after.place = (inFunction stage).place := adds.later.place
  have leave : onScopes Scopes.pop after.parser = some ((), (after.placed stage.place).parser) := by
    show some ((), Parser.mk { after.parser.builder with depth := after.place.depth }
      after.place.scopes.pop after.place.blocks after.place.strayIndents) = _
    rw [place]
    rfl
  unfold within
  rw [run_bind]
  show Option.bind (some ((), (inFunction stage).parser)) _ = _
  rw [Option.bind_some, run_bind, ran, Option.bind_some, leave]

theorem gives_functionDeclaration {statement : ParseM Unit} (settled : stage.place.Settled)
    (name : Name) (parameters : List Parameter) (body : Block)
    (reads : ∀ part ∈ body.parts, ReadsStatement statement part)
    (rest : stage.rest = (Stmt.function name parameters body).shape.leaves ++ left)
    (deep : stage.place.depth + (Stmt.function name parameters body).nesting ≤ Builder.maxDepth) :
    Gives (functionDeclaration (blockOf statement)) stage ()
      [(Stmt.function name parameters body).shape] := by
  rw [Stmt.shape] at rest ⊢
  rw [Stmt.nesting] at deep
  have rest : stage.rest = spelled (.reserved .defWord) :: (.identifier, name.spelling) ::
      spelled lpar :: (Shape.leavesAll (Shape.withCommas
        (parameters.map fun parameter => parameter.shape)) ++
          spelled rpar :: (Shape.leavesAll body.shapes ++ left)) := by simpa using rest
  have items := Readable.parameters
    (fun parameter _ part _ => part.readable : ∀ parameter ∈ parameters, _) (Nat.le_refl _)
    (by omega : most _ ≤ Builder.maxDepth) (.inr rfl)
  refine Reaches.bind (reaches_mark fun marker marked inside same => ?_)
  refine Reaches.bind (reaches_advance (same.trans rest) fun passed adds rest => ?_)
  have inside := inside.adds adds
  refine Reaches.bind (reaches_expect rest rfl fun named adds rest => ?_)
  have inside := inside.adds adds
  refine Reaches.bind (reaches_isAt rest rfl ?_)
  refine (gives_parameterList items rest (by rw [inside.later.place]; omega)).bindShape
    (by simpa using rest) fun listed adds rest => ?_
  have inside := inside.adds adds
  have place := inside.later.place
  have settled : (inFunction listed).place.Settled :=
    ⟨by rw [← settled.onOwnLine, ← place]; rfl, by rw [← settled.noStray, ← place]; rfl⟩
  refine (gives_withinFunction (gives_colonAndSuite settled body reads rest (by
    show listed.place.depth + _ ≤ _
    rw [place]; omega))).bind rest fun filled adds _ => ?_
  refine reaches_done (inside.adds adds) fun after adds _ => ⟨rfl, ?_⟩
  simpa [Shape.ofKind, Shape.ofName] using adds

/-! ## All statements -/

end Grammar

theorem Block.nesting_lt (block : Block) {part : Stmt} (mem : part ∈ block.parts) :
    part.nesting < block.nesting := by
  obtain ⟨width, positive, first, others⟩ := block
  rw [nesting]
  have : part.nesting ≤ most ((first :: others).map fun statement => statement.nesting) :=
    le_most (List.mem_map_of_mem mem)
  rw [List.map_cons] at this
  omega

theorem Branch.nesting_lt (branch : Branch) {part : Stmt} (mem : part ∈ branch.parts) :
    part.nesting < branch.nesting := by
  obtain ⟨condition, body⟩ := branch
  rw [nesting]
  exact Nat.lt_of_lt_of_le (body.nesting_lt mem) (Nat.le_max_right _ _)

/-- What stands in the blocks of a statement is nested less deeply. -/
theorem Stmt.nesting_lt (statement : Stmt) {part : Stmt} (mem : part ∈ statement.parts) :
    part.nesting < statement.nesting := by
  cases statement with
  | simple => cases mem
  | branching first others otherwise? =>
      simp only [parts, List.mem_append, List.mem_flatMap, Option.mem_toList] at mem
      rw [nesting]
      rcases mem with (mem | ⟨branch, mem, mem'⟩) | ⟨body, rfl, mem⟩
      · exact Nat.lt_of_lt_of_le (first.nesting_lt mem) (le_most (by simp))
      · refine Nat.lt_of_lt_of_le (branch.nesting_lt mem') (le_most ?_)
        simp only [List.cons_append, List.mem_cons, List.mem_append, List.mem_map]
        exact .inr (.inl ⟨branch, mem, rfl⟩)
      · refine Nat.lt_of_lt_of_le (body.nesting_lt mem) (le_most ?_)
        simp [otherwiseNesting]
  | looping targets range body =>
      rw [nesting]
      exact Nat.lt_of_lt_of_le (body.nesting_lt mem) (le_most (by simp))
  | function name parameters body =>
      rw [nesting]
      exact Nat.lt_of_lt_of_le (body.nesting_lt mem) (Nat.le_max_right _ _)

open Grammar

/-- Every statement is read, if the blocks may be nested deep enough. -/
theorem Stmt.reads (statement : Stmt) {n : Nat} (enough : statement.nesting ≤ n) :
    ReadsStatement (statementIn (blockFor n)) statement := by
  induction statement using Stmt.induction generalizing n with
  | step statement ih =>
  intro lexed stage left settled rest noBranch deep
  have begins := statement.begins.append left
  refine reaches_statementIn rest (beq_eq_false_iff_ne.2 (begins.ne rfl)) ?_
  -- There is a level left for the blocks of the statement, if it has any.
  have inner (part : Stmt) (mem : part ∈ statement.parts) :
      ReadsStatement (statementIn (blockFor (n - 1))) part :=
    ih part mem (by have := statement.nesting_lt mem; omega)
  have block {part : Stmt} (mem : part ∈ statement.parts) :
      blockFor n = blockOf (statementIn (blockFor (n - 1))) := by
    have := statement.nesting_lt mem
    obtain ⟨n, rfl⟩ := Nat.exists_eq_succ_of_ne_zero (show n ≠ 0 by omega)
    rfl
  have word := rest
  cases statement with
  | simple statement =>
      rw [Stmt.shape] at rest ⊢
      rw [Stmt.nesting] at deep
      exact reaches_statementHere_simple settled rest (statement.begins.append left)
        (gives_simpleStatement settled statement rest deep)
  | branching first others otherwise? =>
      obtain ⟨condition, width, positive, part, more⟩ := first
      rw [block (show part ∈ _ by simp [Stmt.parts, Branch.parts, Block.parts])]
      rw [Stmt.shape, Branch.shapes] at word
      exact reaches_statementHere settled word (.inl ⟨rfl, rfl⟩)
        (gives_ifStatement settled _ others otherwise? inner rest noBranch deep)
  | looping targets range body =>
      obtain ⟨width, positive, part, more⟩ := body
      rw [block (show part ∈ _ by simp [Stmt.parts, Block.parts])]
      rw [Stmt.shape] at word
      exact reaches_statementHere settled word (.inr (.inl ⟨rfl, rfl⟩))
        (gives_forStatement settled targets range _ inner rest deep)
  | function name parameters body =>
      obtain ⟨width, positive, part, more⟩ := body
      rw [block (show part ∈ _ by simp [Stmt.parts, Block.parts])]
      rw [Stmt.shape] at word
      exact reaches_statementHere settled word (.inr (.inr ⟨rfl, rfl⟩))
        (gives_functionDeclaration settled name parameters _ inner rest deep)

end StarlarkSyntax
