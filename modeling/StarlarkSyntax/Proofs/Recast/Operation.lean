import StarlarkSyntax.Proofs.Recast.Chain
/-!
# Operations that are read as targets

The ladder of operators recasts names level by level, since its operands do. So do lambdas and comprehensions,
whose targets are read as targets both times.
-/

set_option autoImplicit false

namespace StarlarkSyntax.Grammar

open Builder (Alike)

section Rules

variable {nested : Nested} {parser parser' : Parser} {level : Nat} {target target' : Bool}

/-! ## Operations -/

/-- Rules for an operand: they recast names, and the second one ends. -/
structure Operands (parser parser' : Parser) (level : Nat) (starts : Kind → Bool)
    (rule rule' : ParseM Bool) : Prop where
  recasts : Recasts parser parser' level rule rule'
  leads : Leads level starts rule'

/-- What stands after an operator, and the marker around both operands. -/
theorem pairs_rightOperand {right right' : ParseM Bool} {starts : Kind → Bool}
    (rights : Operands parser parser' level starts right right') {marker marker' : Marker} {value target : Builder}
    (around : Around parser parser' level marker marker' value target) :
    Pairs (do require expectedExpression right; pure (true, ← wrap marker .binaryExpression))
      (do require expectedExpression right'; pure (true, ← wrap marker' .binaryExpression))
      parser parser' value target fun answer answer' value target =>
        answer'.1 = answer.1 ∧ Around parser parser' level answer.2 answer'.2 value target := by
  refine (rights.recasts.require _).within (keeps_require _ rights.leads.finds.keeps) around
    fun _ value target around => ?_
  refine (pairs_wrap around (.same _)).bind ?_
  rintro wrapper wrapper' value target ⟨-, around⟩
  exact .pure ⟨rfl, around⟩

/-- Both readings find the same operators. -/
theorem Operands.leftAssociative {left left' right right' : ParseM Bool} {starts starts' : Kind → Bool}
    (lefts : Operands parser parser' level starts left left') (precedence : Precedence)
    (rights : Operands parser parser' level starts' right right') :
    Operands parser parser' level starts (leftAssociative precedence left right)
      (leftAssociative precedence left' right') := by
  refine ⟨?_, leads_leftAssociative precedence lefts.leads rights.leads.finds.keeps⟩
  intro value target inStep
  have dropped {marker marker' : Marker} {value target : Builder}
      (around : Around parser parser' level marker marker' value target) (answer : Bool) :=
    ((recasts_drop around.markers).bind fun _ => .pure answer) value target around.inStep
  refine (pairs_mark inStep).bind ?_
  rintro marker _ value _ ⟨-, -, around⟩
  refine lefts.recasts.within lefts.leads.finds.keeps around fun found value target around => ?_
  refine .ite .rfl (fun _ => dropped around false) fun _ => ?_
  refine (Pairs.loop (Around parser parser' level) (fun marker marker' value target around => ?_) around).bind
    fun _ _ _ _ around => dropped around true
  refine .look _ (by rw [around.inStep.nth?]) ?_
  split
  · exact .pure ⟨rfl, around⟩
  · refine recasts_advance.within keeps_advance around fun _ value target around => ?_
    refine .ite .rfl (fun _ => ?_) fun _ => pairs_rightOperand rights around
    exact recasts_advance.within keeps_advance around fun _ _ _ around => pairs_rightOperand rights around

theorem recasts_prefixed {operand operand' : ParseM Bool} (recasts : Recasts parser parser' level operand operand') :
    Recasts parser parser' level (prefixed operand) (prefixed operand') :=
  recasts_mark fun expression => recasts_advance.bind fun _ => (recasts.require _).bind fun _ =>
    (recasts_done expression (.same _)).bind fun _ => .pure true

theorem recasts_power (recasts : Recasting nested parser parser' level) (le : target ≤ target') :
    Recasts parser parser' level (power nested target) (power nested target') := by
  refine recasts_mark fun expression => (recasts_member recasts le).bind fun found => ?_
  refine .ite (fun _ => ?_) fun _ => (recasts_matches? _).bind fun power => .ite (fun _ => ?_) fun _ => ?_
  · exact (recasts_drop expression).bind fun _ => .pure false
  · refine ((recasts.recasts (.exponent le)).require _).bind fun _ => ?_
    exact (recasts_done expression (.same _)).bind fun _ => .pure true
  · exact (recasts_drop expression).bind fun _ => .pure true

theorem recasts_unary (recasts : Recasting nested parser parser' level) (le : target ≤ target') :
    Recasts parser parser' level (unary nested target) (unary nested target') :=
  (recasts_isAtAny signs).bind fun _ => .ite (fun _ => recasts.recasts (.signed le)) fun _ =>
    recasts_power recasts le

theorem operands_bitOr (recasts : Recasting nested parser parser' level) (le : target ≤ target') :
    Operands parser parser' level startsUnary (bitOr nested target) (bitOr nested target') := by
  have unary : Operands parser parser' level startsUnary (unary nested target) (unary nested target') :=
    ⟨recasts_unary recasts le, leads_unary recasts.follows target'⟩
  have multiplicative := unary.leftAssociative .multiplicative unary
  have additive := multiplicative.leftAssociative .additive multiplicative
  have shift := additive.leftAssociative .shift additive
  have bitAnd := shift.leftAssociative .bitAnd shift
  have bitXor := bitAnd.leftAssociative .bitXor bitAnd
  exact bitXor.leftAssociative .bitOr bitXor

theorem recasts_starred (symbol : Operator) (kind : NodeKind) {operand operand' : ParseM Bool}
    (recasts : Recasts parser parser' level operand operand') :
    Recasts parser parser' level (starred symbol kind operand) (starred symbol kind operand') := by
  refine (recasts_isAt _).bind fun _ => .ite (fun _ => recasts) fun _ => ?_
  refine recasts_mark fun expression => recasts_advance.bind fun _ => recasts.bind fun _ =>
    .ite (fun _ => ?_) fun _ => ?_
  · exact (recasts_done expression (.same _)).bind fun _ => .pure true
  · exact (recasts_missing _).bind fun _ => (recasts_drop expression).bind fun _ => .pure false

theorem recasts_starExpression (recasts : Recasting nested parser parser' level) (le : target ≤ target') :
    Recasts parser parser' level (starExpression nested target) (starExpression nested target') :=
  recasts_starred .star .starExpression (operands_bitOr recasts le).recasts

theorem recasts_doubleStar (recasts : Recasting nested parser parser' level) :
    Recasts parser parser' level (doubleStar nested) (doubleStar nested) :=
  recasts_starred .starStar .doubleStarExpression (operands_bitOr recasts (Bool.le_refl false)).recasts

theorem operands_negation (recasts : Recasting nested parser parser' level) (le : target ≤ target') :
    Operands parser parser' level startsOperation (negation nested target) (negation nested target') := by
  have starExpression : Operands parser parser' level startsComparison (starExpression nested target)
      (starExpression nested target') :=
    ⟨recasts_starExpression recasts le, leads_starExpression recasts.follows target'⟩
  have comparison := starExpression.leftAssociative .comparison (operands_bitOr recasts le)
  refine ⟨(recasts_isAt _).bind fun _ => .ite (fun _ => ?_) fun _ => comparison.recasts,
    leads_negation recasts.follows target'⟩
  exact recasts.recasts (.negation le)

theorem recasts_operation (recasts : Recasting nested parser parser' level) (le : target ≤ target') :
    Recasts parser parser' level (operation nested target) (operation nested target') := by
  have negation := operands_negation recasts le
  have conjunction := negation.leftAssociative .conjunction negation
  exact (conjunction.leftAssociative .disjunction conjunction).recasts

/-! ## Lambdas and comprehensions -/

theorem pairs_lambdaHead (recasts : Recasting nested parser parser' level) {value target : Builder}
    (inStep : InStep parser parser' level value target) :
    Pairs (lambdaHead nested) (lambdaHead nested) parser parser' value target
      fun expression expression' value target =>
        SamePlace parser parser' expression expression' ∧ InStep parser parser' level value target := by
  refine (pairs_mark inStep).bind ?_
  rintro marker marker' value target ⟨-, -, expression⟩
  refine recasts_advance.continue_with expression.inStep fun _ value target inStep => ?_
  refine (recasts_lambdaParameters recasts).continue_with inStep fun _ value target inStep => ?_
  exact (recasts_expect _ _).continue_with inStep fun _ _ _ inStep => .pure ⟨expression.markers, inStep⟩

/-- The end of a lambda after its body. -/
theorem recasts_lambdaEnd {marker marker' : Marker} (expression : SamePlace parser parser' marker marker') :
    Recasts parser parser' level (do done marker .lambdaExpression; pure true)
      (do done marker' .lambdaExpression; pure true) :=
  (recasts_done expression (.same _)).bind fun _ => .pure true

theorem recasts_lambda (recasts : Recasting nested parser parser' level) {body body' : ParseM Bool}
    (bodies : Recasts parser parser' level body body') :
    Recasts parser parser' level (lambda nested body) (lambda nested body') := by
  intro value target inStep
  refine (pairs_lambdaHead recasts inStep).bind ?_
  rintro marker marker' value target ⟨expression, inStep⟩
  exact (bodies.require _).bind (fun _ => recasts_lambdaEnd expression) value target inStep

/-- Each body is read after the word of its lambda, so the induction is on the tokens that are left. -/
theorem pairs_rangeItem (recasts : Recasting nested parser parser' level) (value target : Builder)
    (inStep : InStep parser parser' level value target) :
    Pairs nested.rangeItem nested.rangeItem parser parser' value target fun found found' value target =>
      found' = found ∧ InStep parser parser' level value target := by
  rw [Nested.rangeItem]
  refine .look (·.isAt (.reserved .lambdaWord)) (inStep.isAt _) ?_
  cases isAt : value.isAt (.reserved .lambdaWord) with
  | false => exact recasts_operation recasts (Bool.le_refl false) value target inStep
  | true =>
      have here := current?_of_isAt ((inStep.isAt _).trans isAt)
      refine ((pairs_lambdaHead recasts inStep).with_ends
        (ends_lambdaHead recasts.follows (since_over inStep) here)).bind ?_
      rintro marker marker' value target' ⟨⟨expression, inStep'⟩, since, -⟩
      have moved : target.cursor + 1 ≤ target'.cursor := since.reached
      have inside : target'.cursor ≤ target.significant.size := since.builder.inside
      refine (pairs_rangeItem recasts value target' inStep').bind ?_
      rintro _ found value target ⟨rfl, inStep⟩
      refine .ite .rfl (fun _ => ?_) fun _ => recasts_lambdaEnd expression value target inStep
      exact (recasts_missing _).bind (fun _ => recasts_lambdaEnd expression) value target inStep
termination_by parser'.builder.significant.size - target.cursor
decreasing_by
  have same : target.significant = parser'.builder.significant := inStep.since'.significant
  rw [same] at inside
  omega

theorem recasts_condition (recasts : Recasting nested parser parser' level) :
    Recasts parser parser' level (condition nested) (condition nested) :=
  (recasts_isAt _).bind fun _ => .ite (fun _ => recasts_lambda recasts recasts.value) fun _ =>
    recasts_operation recasts (Bool.le_refl false)

theorem recasts_targets (recasts : Recasting nested parser parser' level) :
    Recasts parser parser' level (targets nested) (targets nested) := by
  have item := recasts_starExpression recasts (Bool.le_refl true)
  refine recasts_mark fun tuple => item.bind fun _ => .ite (fun _ => ?_) fun _ => ?_
  · exact (recasts_missing _).bind fun _ => recasts_drop tuple
  refine (recasts_isAt _).bind fun _ => .ite (fun _ => recasts_drop tuple) fun _ => ?_
  exact (recasts_moreItems item).bind fun _ => recasts_done tuple (.same _)

theorem recasts_clause (recasts : Recasting nested parser parser' level) (kind : NodeKind) :
    Recasts parser parser' level (clause nested kind) (clause nested kind) := by
  have range : Recasts parser parser' level
      (if kind = .generatorExpression then operation nested false else tupleOf nested.rangeItem)
      (if kind = .generatorExpression then operation nested false else tupleOf nested.rangeItem) :=
    .ite (fun _ => recasts_operation recasts (Bool.le_refl false)) fun _ =>
      recasts_tupleOf (pairs_rangeItem recasts)
  refine recasts_advance.bind fun _ => (recasts_targets recasts).bind fun _ =>
    (recasts_expect _ _).bind fun _ => (range.require _).bind fun _ => .repeatWhile ?_
  refine (recasts_isAt _).bind fun _ => .ite (fun _ => ?_) fun _ => .pure false
  exact recasts_advance.bind fun _ => ((recasts_condition recasts).require _).bind fun _ => .pure true

theorem recasts_comprehension (recasts : Recasting nested parser parser' level) {marker marker' : Marker}
    (expression : SamePlace parser parser' marker marker') (close? : Option Kind) (kind : NodeKind) :
    Recasts parser parser' level (comprehension nested marker close? kind)
      (comprehension nested marker' close? kind) := by
  refine (Recasts.repeatWhile ((recasts_clause recasts kind).bind fun _ => recasts_isAt _)).bind fun _ => ?_
  have made : Recasts parser parser' level (done marker kind) (done marker' kind) :=
    recasts_done expression (.same _)
  cases close? with
  | none => exact made
  | some close =>
      refine (recasts_matches? close).bind fun _ => .ite (fun _ => ?_) fun _ => made
      exact (recasts_missing _).bind fun _ => made

end Rules

end StarlarkSyntax.Grammar
