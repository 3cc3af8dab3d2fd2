import StarlarkSyntax.Proofs.Recast.Operation
import StarlarkSyntax.Proofs.Total
/-!
# Expressions that are read as targets

The rules for displays, arguments and full expressions recast names if the nested rules do, and so do these one
level higher (`recasting_nestedFor`). Together: expressions that are read as targets are read like values,
wherever both readings begin (`recast_tuple`).
-/

set_option autoImplicit false

namespace StarlarkSyntax.Grammar

section Rules

variable {nested : Nested} {parser parser' : Parser} {level : Nat} {target target' : Bool}
  {marker marker' : Marker}

/-! ## Displays -/

theorem recasts_elements (recasts : Recasting nested parser parser' level) (le : target ≤ target')
    (expression : SamePlace parser parser' marker marker') (close : Kind) (kind : NodeKind) :
    Recasts parser parser' level (elements nested target marker close kind)
      (elements nested target' marker' close kind) := by
  refine (Recasts.repeatWhile ?_).bind fun _ => (recasts_expect _ _).bind fun _ =>
    recasts_done expression (.same _)
  have element : Recasts parser parser' level
      (do
        if ← isAt close then pure false
        else if ← Grammar.test nested target then pure true
        else
          missing ("expected an expression, ',' or " ++ ("'" ++ close.name ++ "'"))
          pure false)
      (do
        if ← isAt close then pure false
        else if ← Grammar.test nested target' then pure true
        else
          missing ("expected an expression, ',' or " ++ ("'" ++ close.name ++ "'"))
          pure false) := by
    refine (recasts_isAt close).bind fun _ => .ite (fun _ => .pure false) fun _ => ?_
    refine (recasts.test le).bind fun _ => .ite (fun _ => .pure true) fun _ => ?_
    exact (recasts_missing _).bind fun _ => .pure false
  refine (recasts_isAt close).bind fun _ => .ite (fun _ => .pure false) fun _ => ?_
  refine (recasts_matches? _).bind fun _ => .ite (fun _ => ?_) fun _ => element
  exact (recasts_missing _).bind fun _ => element

theorem recasts_listDisplay (recasts : Recasting nested parser parser' level) (le : target ≤ target') :
    Recasts parser parser' level (listDisplay nested target) (listDisplay nested target') := by
  refine recasts_mark fun expression => recasts_advance.bind fun _ => (recasts_matches? _).bind fun _ =>
    .ite (fun _ => recasts_done expression (.same _)) fun _ => ?_
  refine ((recasts.test le).require _).bind fun _ => (recasts_isAt _).bind fun _ => .ite (fun _ => ?_) fun _ => ?_
  · exact recasts_comprehension recasts expression _ _
  · exact recasts_elements recasts le expression _ _

theorem recasts_parenthesized (recasts : Recasting nested parser parser' level) (le : target ≤ target') :
    Recasts parser parser' level (parenthesized nested target) (parenthesized nested target') := by
  refine recasts_mark fun expression => recasts_advance.bind fun _ => (recasts_matches? _).bind fun _ =>
    .ite (fun _ => recasts_done expression (.same _)) fun _ => ?_
  refine (recasts_tuple recasts le).bind fun _ => (recasts_isAt _).bind fun _ => .ite (fun _ => ?_) fun _ => ?_
  · exact recasts_comprehension recasts expression _ _
  refine recasts_mark fun junk => (recasts_skipUntil _).bind fun _ => .ite (fun _ => ?_) fun _ => ?_
  · exact (recasts_fault junk _).bind fun _ => (recasts_expect _ _).bind fun _ =>
      recasts_done expression (.same _)
  · exact (recasts_drop junk).bind fun _ => (recasts_expect _ _).bind fun _ =>
      recasts_done expression (.same _)

theorem recasts_keyValue (recasts : Recasting nested parser parser' level) :
    Recasts parser parser' level (keyValue nested) (keyValue nested) := by
  refine recasts_mark fun pair => recasts.value.bind fun _ => .ite (fun _ => ?_) fun _ => ?_
  · exact (recasts_drop pair).bind fun _ => .pure false
  refine (recasts_expect _ _).bind fun _ => recasts.value.bind fun _ => .ite (fun _ => ?_) fun _ => ?_
  · exact (recasts_done pair (.same _)).bind fun _ => .pure true
  · exact (recasts_missing _).bind fun _ => (recasts_drop pair).bind fun _ => .pure false

theorem recasts_entries (recasts : Recasting nested parser parser' level)
    (expression : SamePlace parser parser' marker marker') :
    Recasts parser parser' level (entries nested marker) (entries nested marker') := by
  refine (Recasts.repeatWhile ?_).bind fun _ => (recasts_expect _ _).bind fun _ =>
    recasts_done expression (.same _)
  refine (recasts_isAt _).bind fun _ => .ite (fun _ => .pure false) fun _ => ?_
  refine (recasts_expect _ _).bind fun _ => (recasts_isAt _).bind fun _ => .ite (fun _ => ?_) fun _ => ?_
  · exact recasts_doubleStar recasts
  · exact recasts_keyValue recasts

theorem recasts_dictionary (recasts : Recasting nested parser parser' level) {key key' : Marker}
    (expression : SamePlace parser parser' marker marker') (pair : SamePlace parser parser' key key') :
    Recasts parser parser' level (dictionary nested marker key) (dictionary nested marker' key') := by
  refine recasts.value.bind fun _ => .ite (fun _ => ?_) fun _ => ?_
  · refine (recasts_done pair (.same _)).bind fun _ => (recasts_isAt _).bind fun _ => .ite (fun _ => ?_) fun _ => ?_
    · exact recasts_comprehension recasts expression _ _
    · exact recasts_entries recasts expression
  · refine (recasts_missing _).bind fun _ => (recasts_done pair (.same _)).bind fun _ => ?_
    exact (recasts_matches? _).bind fun _ => recasts_done expression (.same _)

/-- What stands in braces is never a target. -/
theorem recasts_braces (recasts : Recasting nested parser parser' level) :
    Recasts parser parser' level (braces nested) (braces nested) := by
  refine recasts_mark fun expression => recasts_advance.bind fun _ => (recasts_matches? _).bind fun _ =>
    .ite (fun _ => recasts_done expression (.same _)) fun _ => ?_
  refine (recasts_isAt _).bind fun _ => .ite (fun _ => ?_) fun _ => ?_
  · refine (recasts_doubleStar recasts).bind fun _ => .ite (fun _ => recasts_entries recasts expression) fun _ => ?_
    exact (recasts_missing _).bind fun _ => recasts_done expression (.same _)
  refine recasts_mark fun first => recasts.value.bind fun _ => .ite (fun _ => ?_) fun _ => ?_
  · exact (recasts_missing _).bind fun _ => (recasts_drop first).bind fun _ =>
      recasts_done expression (.same _)
  refine (recasts_matches? _).bind fun _ => .ite (fun _ => ?_) fun _ => ?_
  · exact recasts_dictionary recasts expression first
  refine (recasts_drop first).bind fun _ => (recasts_isAt _).bind fun _ => .ite (fun _ => ?_) fun _ => ?_
  · exact recasts_comprehension recasts expression _ _
  · exact recasts_elements recasts (Bool.le_refl false) expression _ _

theorem recasts_display (recasts : Recasting nested parser parser' level) (delimiter : Delimiter)
    (le : target ≤ target') :
    Recasts parser parser' level (display nested delimiter target) (display nested delimiter target') := by
  cases delimiter with
  | parenthesis => exact recasts_parenthesized recasts le
  | bracket => exact recasts_listDisplay recasts le
  | brace => exact recasts_braces recasts

/-! ## Arguments -/

theorem recasts_namedArgument (recasts : Recasting nested parser parser' level) :
    Recasts parser parser' level (namedArgument nested) (namedArgument nested) := by
  refine (recasts_isAt _).bind fun _ => .ite (fun _ => .pure false) fun _ => ?_
  refine recasts_mark fun argument => recasts_advance.bind fun _ => (recasts_matches? _).bind fun _ =>
    .ite (fun _ => ?_) fun _ => ?_
  · exact recasts.requireTest.bind fun _ => (recasts_done argument (.same _)).bind fun _ => .pure true
  · exact (recasts_rollback argument).bind fun _ => .pure false

theorem recasts_plainArgument (recasts : Recasting nested parser parser' level) (first : Bool) :
    Recasts parser parser' level (plainArgument nested first) (plainArgument nested first) := by
  refine recasts_mark fun {marker marker'} argument => recasts_mark fun generator => recasts.value.bind fun _ =>
    .ite (fun _ => ?_) fun _ => ?_
  · exact (recasts_rollback argument).bind fun _ => .pure false
  have made : Recasts parser parser' level (do done marker .argumentExpression; pure true)
      (do done marker' .argumentExpression; pure true) :=
    (recasts_done argument (.same _)).bind fun _ => .pure true
  refine (recasts_isAt _).bind fun _ => .ite (fun _ => ?_) fun _ => ?_
  · exact (recasts_comprehension recasts generator none _).bind fun _ => made
  · exact (recasts_drop generator).bind fun _ => made

theorem recasts_argument (recasts : Recasting nested parser parser' level) (first : Bool) :
    Recasts parser parser' level (argument nested first) (argument nested first) := by
  refine (recasts_isAtAny _).bind fun _ => .ite (fun _ => ?_) fun _ => ?_
  · exact recasts_mark fun argument => recasts_advance.bind fun _ => recasts.requireTest.bind fun _ =>
      (recasts_done argument (.same _)).bind fun _ => .pure true
  · exact (recasts_namedArgument recasts).bind fun _ => .ite (fun _ => .pure true) fun _ =>
      recasts_plainArgument recasts first

theorem recasts_arguments (recasts : Recasting nested parser parser' level) :
    Recasts parser parser' level (arguments nested) (arguments nested) := by
  refine recasts_mark fun list => recasts_advance.bind fun _ => (Recasts.loop (fun first => ?_) true).bind fun _ =>
    (recasts_expect _ _).bind fun _ => recasts_done list (.same _)
  refine (recasts_isAt _).bind fun _ => .ite (fun _ => .pure _) fun _ => .ite (fun _ => ?_) fun _ => ?_
  · exact (recasts_argument recasts true).bind fun _ => .pure _
  refine (recasts_matches? _).bind fun _ => .ite (fun _ => ?_) fun _ => ?_
  · exact (recasts_missing _).bind fun _ => .pure _
  refine (recasts_isAt _).bind fun _ => .ite (fun _ => .pure _) fun _ => ?_
  exact (recasts_argument recasts false).bind fun _ => .pure _

/-! ## Full expressions -/

theorem recasts_choice (recasts : Recasting nested parser parser' level) (le : target ≤ target') :
    Recasts parser parser' level (choice nested target) (choice nested target') := by
  have operation := recasts_operation recasts le
  refine recasts_mark fun {marker marker'} expression => operation.bind fun _ => .ite (fun _ => ?_) fun _ => ?_
  · exact (recasts_drop expression).bind fun _ => .pure false
  refine (recasts_isAt _).bind fun _ => .ite (fun _ => ?_) fun _ => ?_
  · exact (recasts_drop expression).bind fun _ => .pure true
  refine recasts_mark fun {place place'} condition => recasts_advance.bind fun _ => operation.bind fun found => ?_
  have made : Recasts parser parser' level
      (do drop place; done marker .conditionalExpression; pure true)
      (do drop place'; done marker' .conditionalExpression; pure true) :=
    (recasts_drop condition).bind fun _ => (recasts_done expression (.same _)).bind fun _ => .pure true
  cases found with
  | false => exact (recasts_missing _).bind fun _ => made
  | true =>
      refine (recasts_isAt _).bind fun _ => .ite (fun _ => ?_) fun _ => ?_
      · exact (recasts_rollback condition).bind fun _ => (recasts_drop expression).bind fun _ => .pure true
      refine (recasts_matches? _).bind fun _ => .ite (fun _ => ?_) fun _ => ?_
      · exact ((recasts.test le).require _).bind fun _ => made
      · exact (recasts_missing _).bind fun _ => made

theorem recasts_conditional (recasts : Recasting nested parser parser' level) (le : target ≤ target') :
    Recasts parser parser' level (conditional nested target) (conditional nested target') :=
  (recasts_isAt _).bind fun _ => .ite (fun _ => recasts_lambda recasts recasts.value) fun _ =>
    recasts_choice recasts le

/-- The rules for the productions recast names if those one level deeper do. -/
theorem recasts_production (recasts : Recasting nested parser parser' level) {rule rule' : Production}
    (recast : rule.Recast rule') :
    Recasts parser parser' level (production nested rule) (production nested rule') := by
  cases recast with
  | test le => exact recasts_conditional recasts le
  | display delimiter le => exact (recasts_display recasts delimiter le).bind fun _ => .pure true
  | arguments => exact (recasts_arguments recasts).bind fun _ => .pure true
  | negation le => exact recasts_prefixed (operands_negation recasts le).recasts
  | signed le => exact recasts_prefixed (recasts_unary recasts le)
  | exponent le => exact recasts_unary recasts le

end Rules

/-- At the limit no rule is followed at all, and below it the rules are those one level deeper. -/
theorem recasting_nestedFor (levels : Nat) {parser parser' : Parser} {level : Nat}
    (enough : Builder.maxDepth ≤ levels + level) : Recasting (nestedFor levels) parser parser' level := by
  refine ⟨follows_nestedFor levels enough, fun {rule rule'} recast => ?_⟩
  induction levels generalizing level rule rule' with
  | zero => exact recasts_nest fun shallow => absurd shallow (by omega)
  | succ levels ih =>
      have deeper : Builder.maxDepth ≤ levels + (level + 1) := by omega
      exact recasts_nest fun _ => recasts_production ⟨follows_nestedFor levels deeper, ih deeper⟩ recast

/-! ## Both readings of an expression -/

/-- An expression is read as a value from one parser and as a target from another, where the same tokens come
next and as many levels of nesting have been entered. -/
theorem exists_recast {parser parser' : Parser} (wellFormed : parser.builder.WellFormed)
    (wellFormed' : parser'.builder.WellFormed)
    (tokens : parser'.builder.significant = parser.builder.significant)
    (cursor : parser'.builder.cursor = parser.builder.cursor)
    (depth : parser'.builder.depth = parser.builder.depth) :
    ∃ found value target, tuple nested false parser = some (found, parser.over value) ∧
      tuple nested true parser' = some (found, parser'.over target) ∧
      InStep parser parser' parser.builder.depth value target := by
  have self : parser.Since parser.builder.depth 0 parser := ⟨wellFormed, rfl, rfl, rfl, Nat.zero_le _⟩
  obtain ⟨found, next, ran, -⟩ := (leads_tuple (follows_nested _) false).finds parser 0 parser self
  have recasting : Recasting nested parser parser' parser.builder.depth :=
    recasting_nestedFor Builder.maxDepth (Nat.le_add_right _ _)
  obtain ⟨_, value, target, rfl, ran', rfl, inStep⟩ := recasts_tuple recasting (Bool.false_le true)
    parser.builder parser'.builder (.begin wellFormed wellFormed' tokens cursor depth) found next ran
  exact ⟨_, value, target, ran, ran', inStep⟩

/-- Reading an expression as a target agrees with reading it as a value: the answer is the same, it ends before
the same token, and the same is described but for references that have become targets. This is so wherever the
same tokens come next and as many levels have been entered, whatever was described before; neither reading
takes anything of that back. So where an equals sign followed the value, it follows the target. -/
theorem recast_tuple (parser parser' : Parser) (wellFormed : parser.builder.WellFormed)
    (wellFormed' : parser'.builder.WellFormed)
    (tokens : parser'.builder.significant = parser.builder.significant)
    (cursor : parser'.builder.cursor = parser.builder.cursor)
    (depth : parser'.builder.depth = parser.builder.depth) :
    ∃ found value target, tuple nested false parser = some (found, { parser with builder := value }) ∧
      tuple nested true parser' = some (found, { parser' with builder := target }) ∧
      target.cursor = value.cursor ∧
      parser.builder.Since value ∧ parser'.builder.Since target ∧
      List.Forall₂ (Event.Recast (Builder.Across parser.builder parser'.builder))
        (value.events.toList.drop parser.builder.events.size)
        (target.events.toList.drop parser'.builder.events.size) ∧
      (value.isAt .equals = true → target.isAt .equals = true) := by
  obtain ⟨found, value, target, ran, ran', inStep⟩ := exists_recast wellFormed wellFormed' tokens cursor depth
  refine ⟨found, value, target, ran, ran', inStep.cursor, inStep.since, ?_, inStep.tally.forall₂, ?_⟩
  · have since' := inStep.since'
    rw [← depth] at since'
    exact since'
  · exact (inStep.isAt .equals).trans

/-- A value that was read after a marker, and the target that is read without it. -/
theorem recast_tuple_of_marker :
    let parser' : Parser := { builder := Builder.ofLexed (tokenize "a.b[0], f(x).y = 1\n".toList) }
    let parser : Parser := { parser' with builder := parser'.builder.mark.2 }
    ∃ found value target, tuple nested false parser = some (found, { parser with builder := value }) ∧
      tuple nested true parser' = some (found, { parser' with builder := target }) ∧
      target.cursor = value.cursor ∧
      List.Forall₂ (Event.Recast (Builder.Across parser.builder parser'.builder))
        (value.events.toList.drop 1) target.events.toList ∧
      (value.isAt .equals = true → target.isAt .equals = true) := by
  intro parser' parser
  have wellFormed' : parser'.builder.WellFormed := Builder.since_ofLexed _
  have wellFormed : parser.builder.WellFormed := wellFormed'.mark.wellFormed
  obtain ⟨found, value, target, ran, ran', cursor, -, -, same, stops⟩ :=
    recast_tuple parser parser' wellFormed wellFormed' rfl rfl rfl
  exact ⟨found, value, target, ran, ran', cursor, same, stops⟩

/-- An equals sign that followed a value follows the target that is read in its place. The value was read after
a marker, and both were taken back. -/
theorem targetExpression_of_equals {parser : Parser} {value : Builder} (wellFormed : parser.builder.WellFormed)
    (ran : expression { parser with builder := parser.builder.mark.2 } =
      some (true, { parser with builder := value }))
    (stops : value.isAt .equals = true) :
    ∃ target, targetExpression parser = some ((), { parser with builder := target }) ∧
      target.cursor = value.cursor ∧ target.isAt .equals = true := by
  have marked : (parser.over parser.builder.mark.2).builder.WellFormed := wellFormed.mark.wellFormed
  obtain ⟨found, value', target, first, second, inStep⟩ := exists_recast marked wellFormed rfl rfl rfl
  have same := first.symm.trans ran
  simp only [Parser.over, Option.some.injEq, Prod.mk.injEq, Parser.mk.injEq, and_true] at same
  obtain ⟨rfl, rfl⟩ := same
  refine ⟨target, ?_, inStep.cursor, (inStep.isAt .equals).trans stops⟩
  exact congrArg (Option.bind · _) second

end StarlarkSyntax.Grammar
