import StarlarkSyntax.Proofs.Progress.Expression
import StarlarkSyntax.Grammar.Statement
/-!
# Statements end

Every rule for statements ends, takes nothing back that was described before it, and passes a token
if there is one. The one exception is the dedent that ends a block, which is left for the block; the
loops that follow statements one after another stop there (`Ready`).

Blocks are followed by an induction on how many levels of nesting are left, as expressions are.
-/

set_option autoImplicit false

namespace StarlarkSyntax.Grammar

section Simple

variable {depth : Nat}

/-! ## Scopes -/

theorem ends_scope {β : Type} {more : Scope → ParseM β} {parser : Parser}
    {after : β → Parser → Prop} (ends : Ends (more parser.scopes.current) parser after) :
    Ends (scope >>= more) parser after :=
  ends

theorem keeps_setAfterSemicolon (value : Bool) : Keeps depth (setAfterSemicolon value) :=
  fun _ _ _ since => ⟨_, _, rfl, since.builder, since.blocks, since.outer, since.atDepth,
    since.reached⟩

theorem ends_strayIndents {β : Type} {more : Nat → ParseM β} {parser : Parser}
    {after : β → Parser → Prop} (ends : Ends (more parser.strayIndents) parser after) :
    Ends (strayIndents >>= more) parser after :=
  ends

theorem ends_blocks {β : Type} {more : Nat → ParseM β} {parser : Parser}
    {after : β → Parser → Prop} (ends : Ends (more parser.blocks) parser after) :
    Ends (blocks >>= more) parser after :=
  ends

/-- A rule that is followed in a scope of its own leaves the scopes outside alone. -/
theorem ends_within {rule : ParseM Unit} (change : Scope → Scope) {base parser : Parser}
    {floor higher : Nat} (since : base.Since depth floor parser)
    (ends : ∀ inner : Parser, inner.builder = parser.builder →
      inner.Since depth parser.builder.cursor inner →
        Ends rule inner fun _ next => inner.Since depth higher next) :
    Ends (within change rule) parser fun _ next => base.Since depth higher next := by
  have pushed : Ends (onScopes fun scopes => scopes.push (change scopes.current)) parser
      fun _ next => next = parser.inScope change := ⟨(), _, rfl, rfl⟩
  refine pushed.bind ?_
  rintro _ _ rfl
  exact (ends (parser.inScope change) rfl (since.inScope change)).bind fun _ next later =>
    ⟨_, _, rfl, since.leaveScope later⟩

theorem keeps_within (change : Scope → Scope) {rule : ParseM Unit} (keeps : Keeps depth rule) :
    Keeps depth (within change rule) := fun _ _ _ since =>
  ends_within change since fun inner _ self =>
    (keeps inner _ inner self).mono fun _ _ later => later.raise (Nat.le_trans since.reached later.reached)

/-! ## Simple statements -/

theorem keeps_endOfStatement : Keeps depth endOfStatement := by
  intro base floor parser since
  refine (finds_matches? _).bind since (fun parser since => ?_) fun parser since => ?_
  · exact keeps_setAfterSemicolon false base floor parser since.lower
  refine ends_isAt ?_
  split
  · refine ends_scope ?_
    split
    · refine keeps_advance.bind since fun _ parser since => ?_
      refine (keeps_setAfterSemicolon true).bind since fun _ parser since => ?_
      refine (finds_matches? _).bind since (fun parser since => ?_) fun parser since => ?_
      · exact keeps_setAfterSemicolon false base floor parser since.lower
      · exact .pure since
    · exact .pure since
  · refine ends_look ?_
    split
    · exact keeps_missing _ base floor parser since
    · exact .pure since

theorem passes_wordStatement (word : Kind) (kind : NodeKind) :
    Passes depth word (wordStatement kind) := by
  intro base floor parser since seen
  refine (ends_mark since).bind fun statement next ⟨since, made, _, _, view⟩ => ?_
  have seen := (congrFun view 0).trans seen
  refine (passes_advance _ base floor next since seen).bind fun _ parser since => ?_
  refine keeps_endOfStatement.bind since fun _ parser since => ?_
  exact ends_done since made _

theorem passes_returnStatement (word : Kind) : Passes depth word returnStatement := by
  intro base floor parser since seen
  refine (ends_mark since).bind fun statement next ⟨since, made, _, _, view⟩ => ?_
  have seen := (congrFun view 0).trans seen
  refine (passes_advance _ base floor next since seen).bind fun _ parser since => ?_
  have close : ∀ parser : Parser, base.Since depth (floor + 1) parser → Ends (do
      endOfStatement
      done statement .returnStatement) parser fun _ next => base.Since depth (floor + 1) next := by
    intro parser since
    exact keeps_endOfStatement.bind since fun _ parser since => ends_done since made _
  refine ends_look (ends_look ?_)
  dsimp only
  split
  · exact (keeps_require _ (leads_expression depth).finds.keeps).bind since
      fun _ parser since => close parser since
  · exact close parser since

theorem keeps_loadString : Keeps depth loadString := by
  intro base floor parser since
  refine ends_isAt ?_
  split
  · exact keeps_tokenNode _ base floor parser since
  refine ends_look (ends_look ?_)
  split
  · exact keeps_missing _ base floor parser since
  · rename_i more
    rw [Bool.or_eq_true, not_or, Bool.not_eq_true] at more
    obtain ⟨kind, seen⟩ := exists_current? more.1
    exact (passes_advanceError kind _ base floor parser since seen).mono fun _ _ since => since.lower

theorem keeps_loadValue : Keeps depth loadValue := by
  intro base floor parser since
  refine (ends_mark since).bind fun value parser ⟨since, made, _⟩ => ?_
  refine (finds_matches? _).bind since (fun parser since => ?_) fun parser since => ?_
  · refine (finds_matches? _).bind since (fun parser since => ?_) fun parser since => ?_
    · refine keeps_loadString.bind since.lower.lower fun _ parser since => ?_
      exact ends_done since made _
    · refine (ends_rollback since made).bind fun _ parser ⟨since, _⟩ => ?_
      refine (ends_mark since).bind fun value parser ⟨since, made, _⟩ => ?_
      refine keeps_loadString.bind since fun _ parser since => ?_
      exact ends_done since made _
  · refine keeps_loadString.bind since fun _ parser since => ?_
    exact ends_done since made _

theorem keeps_loadValues : Keeps depth loadValues := by
  intro base floor parser since
  have close : Keeps depth (do
      let _ ← expect rpar "expected ')'") :=
    (finds_expect _ _).keeps.seq fun _ => .pure ()
  refine (finds_matches? _).bind since (fun parser since => ?_) fun parser since => ?_
  · refine ends_isAt ?_
    dsimp only
    split
    · refine keeps_loadString.bind since.lower fun _ parser since => ?_
      refine (keeps_repeatWhile ?_).bind since fun _ parser since => close base floor parser since
      intro base floor parser since
      refine ends_isAt ?_
      split
      · exact .pure since
      refine (finds_matches? _).bind since (fun parser since => ?_) fun parser since => ?_
      · refine ends_isAt ?_
        split
        · exact .pure since.lower
        · exact keeps_loadValue.bind since fun _ _ since => .pure since
      · exact (keeps_missing _).bind since fun _ _ since => .pure since
    · exact close base floor parser since.lower
  · exact keeps_missing _ base floor parser since

theorem passes_loadStatement (word : Kind) : Passes depth word loadStatement := by
  intro base floor parser since seen
  refine (ends_mark since).bind fun statement next ⟨since, made, _, _, view⟩ => ?_
  have seen := (congrFun view 0).trans seen
  refine (passes_advance _ base floor next since seen).bind fun _ parser since => ?_
  refine keeps_loadValues.bind since fun _ parser since => ?_
  refine keeps_endOfStatement.bind since fun _ parser since => ?_
  exact ends_done since made _

theorem passes_assignment {kind : Kind} (start : startsNested depth kind = true) :
    Passes depth kind assignment := by
  intro base floor parser since seen
  refine (passes_targetExpression start base floor parser since seen).bind fun _ parser since => ?_
  refine (finds_expect _ _).bind since (fun parser since => ?_) fun _ since => .pure since
  refine (keeps_repeatWhile ?_) base _ parser since.lower
  intro base floor parser since
  refine (ends_mark since).bind fun value parser ⟨since, made, _⟩ => ?_
  refine (leads_expression depth).finds.bind since (fun parser since => ?_) fun parser since => ?_
  · refine ends_isAt ?_
    split
    · exact (ends_drop since.lower made).bind fun _ _ since => .pure since
    · refine (ends_rollback since made).bind fun _ parser ⟨since, _⟩ => ?_
      refine (keeps_targetExpression depth).bind since fun _ parser since => ?_
      exact finds_matches? _ base floor parser since
  · refine (ends_drop since made).bind fun _ parser since => ?_
    exact (keeps_missing _).bind since fun _ _ since => .pure since

theorem passes_unexpectedToken (kind : Kind) : Passes depth kind unexpectedToken := by
  intro base floor parser since seen
  refine ends_look ?_
  rw [seen]
  split
  · contradiction
  · exact passes_advanceError _ _ base floor parser since seen
  · have counted : base.Since depth floor
        { parser with strayIndents := parser.strayIndents + 1 } :=
      ⟨since.builder, since.blocks, since.outer, since.atDepth, since.reached⟩
    exact passes_advanceError kind _ base floor _ counted seen
  · exact passes_advanceError _ _ base floor parser since seen

/-- What cannot be read as an expression is read as an unexpected token, which passes it. -/
theorem passes_expressionStatement (kind : Kind) : Passes depth kind expressionStatement := by
  intro base floor parser since seen
  have significant := since.builder.significant
  refine (ends_mark since).bind ?_
  rintro statement next ⟨since, made, _, began, view⟩
  have seen' := (congrFun view 0).trans seen
  -- Taken back, the parser is at the same token again.
  have again {next : Parser} {floor : Nat} (since : base.Since depth floor next)
      (back : next.builder.cursor = statement.cursor) : next.builder.current? = some kind := by
    rw [← seen]
    simp only [Builder.current?, Builder.nth?, Builder.nthToken?, back, began, significant,
      since.builder.significant]
  have unexpected : ∀ parser : Parser, base.Since depth floor parser → Ends (do
      rollback statement
      unexpectedToken) parser fun _ next => base.Since depth (floor + 1) next := by
    intro parser since
    refine (ends_rollback since made).bind ?_
    rintro _ next ⟨since, back⟩
    exact passes_unexpectedToken kind base floor next since (again since back)
  cases start : startsNested depth kind with
  | false =>
      have away : next.builder.current?.any (startsNested depth) = false := by
        rw [show next.builder.current? = some kind from seen']
        exact start
      refine ((leads_expression depth).misses base floor next since away).bind ?_
      rintro _ parser ⟨rfl, since⟩
      exact unexpected parser since
  | true =>
      refine ((leads_expression depth).passes kind start base floor next since seen').bind
        fun found parser since => ?_
      cases found with
      | false => exact unexpected parser since.lower
      | true =>
          refine ends_look ?_
          split
          · refine keeps_advance.bind since fun _ parser since => ?_
            refine (keeps_require _ (leads_expression depth).finds.keeps).bind since
              fun _ parser since => ?_
            refine keeps_endOfStatement.bind since fun _ parser since => ?_
            exact ends_done since made _
          · refine (ends_rollback since made).bind ?_
            rintro _ next ⟨since, back⟩
            have seen := again since back
            refine (ends_mark since).bind ?_
            rintro statement next ⟨since, made, _, _, view⟩
            have seen := (congrFun view 0).trans seen
            refine (passes_assignment start base floor next since seen).bind
              fun _ parser since => ?_
            refine keeps_endOfStatement.bind since fun _ parser since => ?_
            exact ends_done since made _
          · refine keeps_endOfStatement.bind since fun _ parser since => ?_
            exact ends_done since made _

theorem passes_simpleStatement (kind : Kind) : Passes depth kind simpleStatement := by
  intro base floor parser since seen
  refine ends_look ?_
  rw [seen]
  split
  · contradiction
  · exact passes_wordStatement _ _ base floor parser since seen
  · exact passes_wordStatement _ _ base floor parser since seen
  · exact passes_wordStatement _ _ base floor parser since seen
  · exact passes_returnStatement _ base floor parser since seen
  · exact passes_loadStatement _ base floor parser since seen
  · exact passes_expressionStatement _ base floor parser since seen

theorem keeps_simpleStatement : Keeps depth simpleStatement := by
  intro base floor parser since
  cases seen : parser.builder.current? with
  | none =>
      refine ends_look ?_
      rw [seen]
      exact .pure since
  | some kind =>
      exact (passes_simpleStatement kind base floor parser since seen).mono
        fun _ _ since => since.lower

end Simple

/-! ## Suites -/

section Compound

variable {depth : Nat} {block : ParseM Unit}

theorem keeps_colon : Keeps depth colon := by
  intro base floor parser since
  refine (finds_matches? _).bind since (fun parser since => .pure since.lower) fun parser since => ?_
  refine ends_isAt ?_
  split
  · exact (keeps_missing _).bind since fun _ _ since => .pure since
  refine (ends_mark since).bind fun junk parser ⟨since, made, _⟩ => ?_
  refine (finds_skipUntil _).keeps.bind since fun _ parser since => ?_
  have close (found : Bool) : ∀ parser : Parser, base.Since depth floor parser → Ends (do
      fault junk "expected ':'"
      pure found) parser fun _ next => base.Since depth floor next := by
    intro parser since
    exact (ends_fault since made _).bind fun _ _ since => .pure since
  refine (finds_matches? _).bind since (fun parser since => ?_) fun parser since => ?_
  · exact close true parser since.lower
  · exact (finds_matches? _).keeps.bind since fun _ parser since => close false parser since

theorem keeps_inlineStatement : Keeps depth inlineStatement :=
  keeps_within _ keeps_simpleStatement

theorem keeps_inlineSuite : Keeps depth inlineSuite := by
  intro base floor parser since
  refine (ends_mark since).bind fun list parser ⟨since, made, _⟩ => ?_
  refine ends_look ?_
  dsimp only
  split
  · exact (keeps_missing _).bind since fun _ parser since => ends_done since made _
  refine keeps_inlineStatement.bind since fun _ parser since => ?_
  refine (keeps_repeatWhile ?_).bind since fun _ parser since => ends_done since made _
  intro base floor parser since
  refine (finds_matches? _).bind since (fun parser since => ?_) fun parser since => ?_
  · refine (finds_matches? _).bind since (fun parser since => ?_) fun parser since => ?_
    · exact .pure since.lower.lower
    · exact keeps_inlineStatement.bind since fun _ _ since => .pure since
  · exact .pure since

theorem keeps_blockSuite (keeps : Keeps depth block) : Keeps depth (blockSuite block) := by
  intro base floor parser since
  refine (ends_mark since).bind fun list parser ⟨since, made, _⟩ => ?_
  refine (finds_matches? _).bind since (fun parser since => ?_) fun parser since => ?_
  · refine keeps.bind since.lower fun _ parser since => ?_
    refine (ends_done since made _).bind fun _ parser since => ?_
    exact (finds_matches? _).keeps.bind since fun _ _ since => .pure since
  · refine (keeps_missing _).bind since fun _ parser since => ?_
    exact ends_done since made _

theorem keeps_suite (keeps : Keeps depth block) : Keeps depth (suite block) := by
  intro base floor parser since
  refine (finds_matches? _).bind since (fun parser since => ?_) fun parser since => ?_
  · exact keeps_blockSuite keeps base floor parser since.lower
  · exact keeps_inlineSuite base floor parser since

theorem keeps_colonAndSuite (keeps : Keeps depth block) : Keeps depth (colonAndSuite block) := by
  intro base floor parser since
  refine keeps_colon.bind since fun found parser since => ?_
  cases found with
  | false => exact keeps_emptyNode _ base floor parser since
  | true => exact keeps_suite keeps base floor parser since

/-! ## Compound statements -/

theorem passes_branch (keeps : Keeps depth block) (word : Kind) :
    Passes depth word (branch block) := by
  intro base floor parser since seen
  refine (passes_advance _ base floor parser since seen).bind fun _ parser since => ?_
  refine (keeps_requireTest (follows_nested depth)).bind since fun _ parser since => ?_
  exact keeps_colonAndSuite keeps base _ parser since

theorem passes_ifStatement (keeps : Keeps depth block) (word : Kind) :
    Passes depth word (ifStatement block) := by
  intro base floor parser since seen
  refine (ends_mark since).bind fun statement next ⟨since, made, _, _, view⟩ => ?_
  have seen := (congrFun view 0).trans seen
  refine (passes_branch keeps _ base floor next since seen).bind fun _ parser since => ?_
  refine (keeps_repeatWhile ?_).bind since fun _ parser since => ?_
  · intro base floor parser since
    refine ends_isAt ?_
    split
    · rename_i isAt
      have seen := current?_of_isAt isAt
      exact (passes_branch keeps _ base floor parser since seen).bind fun _ _ since => .pure since
    · exact .pure since
  refine (finds_matches? _).bind since (fun parser since => ?_) fun parser since => ?_
  · exact (keeps_colonAndSuite keeps).bind since.lower fun _ parser since => ends_done since made _
  · exact ends_done since made _

theorem passes_forStatement (keeps : Keeps depth block) (word : Kind) :
    Passes depth word (forStatement block) := by
  intro base floor parser since seen
  refine (ends_mark since).bind fun statement next ⟨since, made, _, _, view⟩ => ?_
  have seen := (congrFun view 0).trans seen
  refine (passes_advance _ base floor next since seen).bind fun _ parser since => ?_
  refine (keeps_targets (follows_nested depth)).bind since fun _ parser since => ?_
  refine (finds_expect _ _).keeps.bind since fun _ parser since => ?_
  refine (keeps_require _ (leads_expression depth).finds.keeps).bind since fun _ parser since => ?_
  refine (keeps_colonAndSuite keeps).bind since fun _ parser since => ?_
  exact ends_done since made _

theorem passes_functionDeclaration (keeps : Keeps depth block) (word : Kind) :
    Passes depth word (functionDeclaration block) := by
  intro base floor parser since seen
  refine (ends_mark since).bind fun declaration next ⟨since, made, _, _, view⟩ => ?_
  have seen := (congrFun view 0).trans seen
  refine (passes_advance _ base floor next since seen).bind fun _ parser since => ?_
  refine (finds_expect _ _).keeps.bind since fun _ parser since => ?_
  have body : ∀ parser : Parser, base.Since depth (floor + 1) parser → Ends (do
      within Scope.withFunction (colonAndSuite block)
      done declaration .functionDeclaration) parser fun _ next =>
        base.Since depth (floor + 1) next := by
    intro parser since
    refine (keeps_within _ (keeps_colonAndSuite keeps)).bind since fun _ parser since => ?_
    exact ends_done since made _
  refine ends_isAt ?_
  dsimp only
  split
  · exact (keeps_parameterList (follows_nested depth)).bind since
      fun _ parser since => body parser since
  · refine (keeps_missing _).bind since fun _ parser since => ?_
    exact (keeps_emptyNode _).bind since fun _ parser since => body parser since

theorem passes_compoundStatement {rule : ParseM Unit} {word : Kind}
    (passes : Passes depth word rule) (afterSemicolon : Bool) :
    Passes depth word (compoundStatement afterSemicolon rule) := by
  intro base floor parser since seen
  cases afterSemicolon with
  | false => exact passes base floor parser since seen
  | true =>
      have reported (message : String) : Ends (missing message) parser fun _ next =>
          base.Since depth floor next ∧ next.builder.current? = some word :=
        ⟨(), _, rfl, since.change (since.builder.missing message) since.reached, seen⟩
      refine (reported _).bind fun _ next ⟨since, seen⟩ => ?_
      exact passes base floor next since seen

/-! ## All statements -/

/-- The next token is no dedent that ends a block. -/
def Ready (parser : Parser) : Prop :=
  parser.builder.current? = some .dedent → 0 < parser.strayIndents ∨ parser.blocks = 0

/-- The rule passes a token if there is one, unless that is a dedent that ends a block. -/
def Steps (depth : Nat) (rule : ParseM Unit) : Prop :=
  ∀ (base : Parser) (floor : Nat) (parser : Parser), base.Since depth floor parser →
    Ends rule parser fun _ next => base.Since depth floor next ∧
      (∀ kind, parser.builder.current? = some kind → Ready parser →
        base.Since depth (floor + 1) next)

theorem steps_statementHere (keeps : Keeps depth block) : Steps depth (statementHere block) := by
  intro base floor parser since
  have noted : Ends (setAfterSemicolon false) parser fun _ next => base.Since depth floor next ∧
      next.builder = parser.builder ∧ next.strayIndents = parser.strayIndents ∧
        next.blocks = parser.blocks :=
    ⟨(), _, rfl, ⟨since.builder, since.blocks, since.outer, since.atDepth, since.reached⟩, rfl, rfl,
      rfl⟩
  refine ends_scope (noted.bind fun _ next ⟨since, view, stray, blocks⟩ => ?_)
  have passed {rule : ParseM Unit} {kind : Kind} (passes : Passes depth kind rule)
      (seen : next.builder.current? = some kind) : Ends rule next fun _ next =>
        base.Since depth floor next ∧ (∀ kind, parser.builder.current? = some kind →
          Ready parser → base.Since depth (floor + 1) next) :=
    (passes base floor next since seen).mono fun _ _ since => ⟨since.lower, fun _ _ _ => since⟩
  refine ends_look ?_
  split
  · rename_i ended
    refine .pure ⟨since, fun kind seen => ?_⟩
    rw [← view, ended] at seen
    contradiction
  · rename_i seen
    refine ends_strayIndents ?_
    split
    · have counted : base.Since depth floor { next with strayIndents := next.strayIndents - 1 } :=
        ⟨since.builder, since.blocks, since.outer, since.atDepth, since.reached⟩
      exact (passes_advance .dedent base floor _ counted seen).mono
        fun _ _ since => ⟨since.lower, fun _ _ _ => since⟩
    · rename_i none
      refine ends_blocks ?_
      split
      · exact passed (passes_simpleStatement _) seen
      · rename_i some
        refine .pure ⟨since, fun kind _ ready => ?_⟩
        have := ready (view ▸ seen)
        omega
  · rename_i seen
    exact passed (passes_compoundStatement (passes_ifStatement keeps _) _) seen
  · rename_i seen
    exact passed (passes_compoundStatement (passes_forStatement keeps _) _) seen
  · rename_i seen
    exact passed (passes_compoundStatement (passes_functionDeclaration keeps _) _) seen
  · rename_i kind _ _ _ _ seen
    exact passed (passes_simpleStatement kind) seen

/-- Where no empty statement ends, nothing is passed. -/
theorem ends_statementBreaks_of_none {parser : Parser}
    (none : parser.builder.isAt .statementBreak = false) :
    Ends (repeatWhile (matches? .statementBreak)) parser fun _ next => next = parser := by
  have missed : matches? .statementBreak parser = some (false, parser) := by
    simp [matches?, withBuilder, Builder.matches?, none]
  rw [repeatWhile, loop_eq]
  have round : Ends (do
      pure (← matches? .statementBreak, ())) parser fun answer next =>
        answer = (false, ()) ∧ next = parser :=
    Ends.bind (⟨false, parser, missed, rfl, rfl⟩ : Ends (matches? .statementBreak) parser
      fun found next => found = false ∧ next = parser)
      fun _ _ is => .pure (is.imp_left fun is => by rw [is])
  refine round.bind ?_
  rintro _ _ ⟨rfl, rfl⟩
  exact .pure rfl

/-- The ends of empty statements are passed, if there are any. -/
theorem ends_statementBreaks {base parser : Parser} {floor : Nat}
    (since : base.Since depth floor parser) :
    Ends (repeatWhile (matches? .statementBreak)) parser fun _ next =>
      base.Since depth floor next ∧ (next = parser ∨ base.Since depth (floor + 1) next) := by
  cases isAt : parser.builder.isAt .statementBreak with
  | false =>
      refine (ends_statementBreaks_of_none isAt).mono ?_
      rintro _ _ rfl
      exact ⟨since, .inl rfl⟩
  | true =>
      have passes : Passes depth .statementBreak (matches? .statementBreak) :=
        (leads_matches? _).passes _ rfl
      refine Ends.mono ?_ fun _ next since => ⟨since.lower, .inr since⟩
      rw [repeatWhile, loop_eq]
      have round : Ends (do
          pure (← matches? .statementBreak, ())) parser fun _ next =>
            base.Since depth (floor + 1) next :=
        (passes base floor parser since (current?_of_isAt isAt)).bind fun _ _ since => .pure since
      refine round.bind ?_
      rintro ⟨goOn, _⟩ next since
      cases goOn with
      | false => exact .pure since
      | true => exact keeps_repeatWhile (finds_matches? _) base _ next since

theorem steps_statementIn (keeps : Keeps depth block) : Steps depth (statementIn block) := by
  intro base floor parser since
  refine (ends_statementBreaks since).bind fun _ next ⟨since, passed⟩ => ?_
  rcases passed with rfl | later
  · exact steps_statementHere keeps base floor _ since
  · exact (steps_statementHere keeps base _ next later).mono
      fun _ _ ⟨since, _⟩ => ⟨since.lower, fun _ _ _ => since⟩

theorem keeps_skipBlockRounds : Keeps depth (loop skipBlockRound 1) := by
  refine keeps_loop ?_ 1
  intro opened base floor parser since
  refine ends_look ?_
  split
  · exact .pure since
  · rename_i kind seen
    dsimp only
    split
    · exact .pure since
    · exact (passes_advance kind base floor parser since seen).bind fun _ _ since => .pure since

theorem keeps_skipBlock : Keeps depth skipBlock := by
  intro base floor parser since
  refine (ends_mark since).bind fun junk parser ⟨since, made, _⟩ => ?_
  exact keeps_skipBlockRounds.bind since fun _ parser since => ends_fault since made _

theorem ends_atBlockEnd (parser : Parser) :
    Ends atBlockEnd parser fun found next => next = parser ∧ (found = false → Ready parser) := by
  refine ends_isAt (ends_strayIndents (.pure ⟨rfl, fun notEnd seen => .inl ?_⟩))
  have isAt : parser.builder.isAt .dedent = true := by
    rw [Builder.isAt, seen]
    rfl
  rw [isAt, Bool.true_and, decide_eq_false_iff_not] at notEnd
  exact Nat.pos_of_ne_zero notEnd

/-- A block goes on as long as there is a statement in it. -/
theorem finds_blockRound {statement : ParseM Unit} (steps : Steps depth statement) :
    Finds depth (do
      if (← atEnd) || (← atBlockEnd) then pure false
      else
        statement
        pure true) := by
  intro base floor parser since
  refine ends_look ((ends_atBlockEnd parser).bind ?_)
  rintro ended _ ⟨rfl, ready⟩
  split
  · exact .pure since
  · rename_i more
    rw [Bool.or_eq_true, not_or, Bool.not_eq_true, Bool.not_eq_true] at more
    obtain ⟨kind, seen⟩ := exists_current? more.1
    refine (steps base floor _ since).bind fun _ next ⟨_, passed⟩ => ?_
    exact .pure (passed kind seen (ready more.2))

/-- The statements of a block, which end where the block does. -/
theorem keeps_blockOf {statement : ParseM Unit}
    (steps : depth < Builder.maxDepth → Steps (depth + 1) statement) :
    Keeps depth (blockOf statement) := by
  intro base floor parser since
  by_cases shallow : depth < Builder.maxDepth
  · refine (ends_enter since shallow).bind ?_
    rintro _ _ ⟨rfl, rfl⟩
    have opened : Ends (modify fun parser => { parser with blocks := parser.blocks + 1 })
        (parser.withDepth (depth + 1)) fun _ next => next = (parser.withDepth (depth + 1)).inBlock :=
      ⟨(), _, rfl, rfl⟩
    refine opened.bind ?_
    rintro _ _ rfl
    have self := (since.withDepth (depth + 1)).inBlock
    refine (keeps_repeatWhile (finds_blockRound (steps shallow))).bind self fun _ next later => ?_
    have closed : Ends (modify fun parser => { parser with blocks := parser.blocks - 1 }) next
        fun _ next' => next' = { next with blocks := next.blocks - 1 } := ⟨(), _, rfl, rfl⟩
    refine closed.bind ?_
    rintro _ _ rfl
    have left := later.leaveBlock
    refine (ends_exit left (since.builder.depth.trans since.atDepth)).mono fun _ next later => ?_
    exact (since.trans later).raise (Nat.le_trans since.reached later.reached)
  · refine (ends_enter_of_le since (Nat.not_lt.1 shallow)).bind ?_
    rintro _ _ ⟨rfl, rfl⟩
    exact keeps_skipBlock base floor _ since

end Compound

theorem keeps_blockFor (levels : Nat) {depth : Nat} (enough : Builder.maxDepth ≤ levels + depth) :
    Keeps depth (blockFor levels) := by
  induction levels generalizing depth with
  | zero =>
      refine keeps_blockOf fun shallow => ?_
      omega
  | succ levels ih =>
      exact keeps_blockOf fun _ => steps_statementIn (ih (by omega))

theorem steps_statement (depth : Nat) : Steps depth statement :=
  steps_statementIn (keeps_blockFor Builder.maxDepth (Nat.le_add_right _ _))

/-- Every file ends. All of it is described between a beginning and an end that make it one node, and
nothing else changes that beginning. -/
theorem ends_file {parser : Parser} {floor : Nat} (since : parser.Since 0 floor parser)
    (outside : parser.blocks = 0) :
    Ends file parser fun _ next => ∃ builder : Builder,
      parser.builder.mark.2.Since builder ∧
        next.builder = builder.complete parser.builder.mark.1.position (.node .file) := by
  let marked : Parser := { parser with builder := parser.builder.mark.2 }
  have self : marked.Since 0 floor marked :=
    ⟨since.builder.mark.self, rfl, rfl, since.atDepth, since.reached⟩
  have begun : Ends mark parser fun marker next =>
      marker = parser.builder.mark.1 ∧ next = marked := ⟨_, _, rfl, rfl, rfl⟩
  refine begun.bind ?_
  rintro _ _ ⟨rfl, rfl⟩
  refine (ends_repeatWhile (fun _ => True) ?_ marked self trivial).bind fun _ next later => ?_
  · intro parser floor since _
    refine ends_look ?_
    split
    · exact .pure ⟨since, nofun⟩
    · rename_i more
      obtain ⟨kind, seen⟩ := exists_current? (Bool.not_eq_true _ ▸ more)
      have ready : Ready parser := fun _ => .inr (since.blocks.trans outside)
      refine (steps_statement 0 marked floor parser since).bind fun _ next ⟨_, passed⟩ => ?_
      exact .pure ⟨passed kind seen ready, fun _ => trivial⟩
  · exact ⟨(), _, rfl, next.builder, later.builder, rfl⟩

end StarlarkSyntax.Grammar
