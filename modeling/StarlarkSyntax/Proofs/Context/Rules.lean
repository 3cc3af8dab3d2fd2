import Mathlib.Logic.Basic
import StarlarkSyntax.Proofs.Context.Restores
/-!
# The rules of the grammar restore their context

Rules for expressions restore their context if the nested rules do (`Nested`), and these do at every level
(`nestedFor`), and the rules for statements if those for blocks do (`blockFor`). Nearly every rule is put together
from rules that restore theirs, and so it does; it is only opened. A rule that begins with a look at the next token
is taken by cases. Two rules call themselves; they are the limits of what they are after so many calls.
-/

set_option autoImplicit false
-- The parts of a rule are looked for one by one, and some rules have many.
set_option synthInstance.maxSize 5000

namespace StarlarkSyntax.Grammar

open Restores (restored)

/-! ## Expressions -/

section Expressions

variable {nested : Nested} [∀ rule, Restores (nested rule)] (target : Bool) (marker : Marker)

instance : Restores (test nested target) := inferInstanceAs (Restores (nested _))
instance : Restores (requireTest nested) := inferInstanceAs (Restores (require _ _))

instance {item : ParseM Bool} [Restores item] : Restores (tupleOf item) := by
  unfold tupleOf
  infer_instance

instance : Restores (tuple nested target) := inferInstanceAs (Restores (tupleOf _))

instance (stop : Kind) : Restores (parameter nested stop) := by
  simp only [parameter]
  infer_instance

instance (stop : Kind) : Restores (parameters nested stop) := by
  unfold parameters
  infer_instance

instance : Restores (parameterList nested) := by
  unfold parameterList
  infer_instance

instance : Restores (lambdaParameters nested) := by
  unfold lambdaParameters
  infer_instance

instance : Restores checkItemEnd := by
  unfold checkItemEnd
  infer_instance

instance : Restores (sliceItem nested) := by
  simp only [sliceItem]
  infer_instance

instance : Restores (sliceTail nested) := by
  unfold sliceTail
  infer_instance

instance : Restores (sliceStart nested) := by
  unfold sliceStart
  infer_instance

instance : Restores (sliceStop nested) := by
  simp only [sliceStop]
  infer_instance

instance : Restores (sliceStep nested) := by
  unfold sliceStep
  infer_instance

instance : Restores (sliceRest nested marker) := by
  unfold sliceRest
  infer_instance

instance : Restores (sliceFromColon nested marker) := by
  unfold sliceFromColon
  infer_instance

instance : Restores (slice nested) := by
  unfold slice
  infer_instance

instance : Restores (subscript nested) := by
  unfold subscript
  infer_instance

@[instance]
theorem restores_primary : Restores (primary nested target) := by
  unfold primary
  refine .seq inferInstance fun kind? => ?_
  split <;> infer_instance

@[instance]
theorem restores_link (assigned : Assigned) (chain : Chain) : Restores (link nested assigned chain) := by
  unfold link
  refine .seq inferInstance fun kind? => ?_
  split <;> infer_instance

instance (assigned : Assigned) : Restores (chain nested assigned) := by
  have ending (ended : Chain) : Restores (match ended.retry? with
      | some assigned => pure (.retry assigned)
      | none => pure .found : ParseM ChainEnd) := by
    cases ended.retry? <;> (dsimp only; infer_instance)
  unfold chain
  infer_instance

-- From a state that is not well-formed nothing gets less when a rule calls itself, so the two inductions that follow
-- are on how far the rule is unfolded.

/-- A chain is read again after it was taken back. -/
@[instance]
theorem restores_chainFrom (assigned : Assigned) : Restores (nested.chainFrom assigned) where
  restored {parser answer next} ran := by
    refine Nested.chainFrom.fixpoint_induct nested
      (fun chainFrom => ∀ assigned, Always (Restored (nested.chainFrom assigned)) (chainFrom assigned))
      (fun _ _ all => ?_) (fun chainFrom ih => ?_) assigned parser answer next ran
    · refine Classical.some_spec₂ (fun limit : Assigned → ParseM Bool => ∀ assigned,
        Always (Restored (nested.chainFrom assigned)) (limit assigned)) fun limit least => ?_
      exact always_of_limit least id (fun given => ⟨given, rfl⟩) (fun _ _ => .rfl) (fun _ => .bot) (fun _ => .refl)
        (by rintro _ _ ⟨⟩ <;> simp) all
    · intro assigned parser answer next ran
      obtain ⟨ended, middle, first, rest⟩ := bind_eq_some.1 ran
      rw [Nested.chainFrom]
      refine (restored first).bind ?_
      cases ended with
      | missing => exact restored rest
      | found => exact restored rest
      | retry weaker => exact ih weaker middle answer next rest

instance : Restores (member nested target) := by
  unfold member
  infer_instance

/-! ### Operations -/

instance (level : Precedence) {left right : ParseM Bool} [Restores left] [Restores right] :
    Restores (leftAssociative level left right) := by
  have round (marker : Marker) (length? : Option Nat) : Restores (match length? with
      | none => pure (false, marker)
      | some length => do
        advance
        if length = 2 then advance
        require expectedExpression right
        pure (true, ← wrap marker .binaryExpression) : ParseM (Bool × Marker)) := by
    cases length? <;> (dsimp only; infer_instance)
  unfold leftAssociative
  infer_instance

instance {operand : ParseM Bool} [Restores operand] : Restores (prefixed operand) := by
  unfold prefixed
  infer_instance

instance : Restores (power nested target) := by
  unfold power
  infer_instance

instance : Restores (unary nested target) := by
  unfold unary
  infer_instance

instance (symbol : Operator) (kind : NodeKind) {operand : ParseM Bool} [Restores operand] :
    Restores (starred symbol kind operand) := by
  unfold starred
  infer_instance

instance : Restores (multiplicative nested target) := inferInstanceAs (Restores (leftAssociative _ _ _))
instance : Restores (additive nested target) := inferInstanceAs (Restores (leftAssociative _ _ _))
instance : Restores (shift nested target) := inferInstanceAs (Restores (leftAssociative _ _ _))
instance : Restores (bitAnd nested target) := inferInstanceAs (Restores (leftAssociative _ _ _))
instance : Restores (bitXor nested target) := inferInstanceAs (Restores (leftAssociative _ _ _))
instance : Restores (bitOr nested target) := inferInstanceAs (Restores (leftAssociative _ _ _))
instance : Restores (starExpression nested target) := inferInstanceAs (Restores (starred _ _ _))
instance : Restores (doubleStar nested) := inferInstanceAs (Restores (starred _ _ _))
instance : Restores (comparison nested target) := inferInstanceAs (Restores (leftAssociative _ _ _))

instance : Restores (negation nested target) := by
  unfold negation
  infer_instance

instance : Restores (conjunction nested target) := inferInstanceAs (Restores (leftAssociative _ _ _))
instance : Restores (operation nested target) := inferInstanceAs (Restores (leftAssociative _ _ _))

/-! ### Comprehensions -/

instance : Restores (lambdaHead nested) := by
  unfold lambdaHead
  infer_instance

instance {body : ParseM Bool} [Restores body] : Restores (lambda nested body) := by
  unfold lambda
  infer_instance

/-- An item of a range may be the body of another one. -/
@[instance]
theorem restores_rangeItem : Restores nested.rangeItem where
  restored {parser answer next} ran := by
    refine Nested.rangeItem.fixpoint_induct nested (Always (Restored nested.rangeItem))
      (fun _ _ all => ?_) (fun item ih => ?_) parser answer next ran
    · refine Classical.some_spec₂ (fun limit : ParseM Bool => Always (Restored nested.rangeItem) limit)
        fun limit least => ?_
      exact always_of_limit least (fun rule (_ : Unit) => rule) (fun given => ⟨given (), rfl⟩)
        (fun _ _ => ⟨fun below _ => below, fun below => below ()⟩) (fun _ => .bot) (fun _ => .refl)
        (by rintro _ _ ⟨⟩ <;> simp) (fun g mem _ => all g mem) ()
    · intro parser answer next ran
      obtain ⟨isLambda, middle, look, rest⟩ := bind_eq_some.1 ran
      rw [Nested.rangeItem]
      refine (restored look).bind ?_
      cases isLambda with
      | false =>
          have operated : Restored (operation nested false) middle answer next := restored rest
          exact operated
      | true =>
          obtain ⟨expression, inner, head, rest⟩ := bind_eq_some.1 rest
          obtain ⟨found, final, body, rest⟩ := bind_eq_some.1 rest
          refine (restored head).bind ((ih inner found final body).bind ?_)
          dsimp only at rest ⊢
          exact restored rest

instance : Restores (condition nested) := by
  unfold condition
  infer_instance

instance : Restores (targets nested) := by
  unfold targets
  infer_instance

instance (kind : NodeKind) : Restores (clause nested kind) := by
  unfold clause
  infer_instance

instance (close? : Option Kind) (kind : NodeKind) : Restores (comprehension nested marker close? kind) := by
  unfold comprehension
  cases close? <;> (dsimp only; infer_instance)

/-! ### Displays and arguments -/

instance (close : Kind) (kind : NodeKind) : Restores (elements nested target marker close kind) := by
  simp only [elements]
  infer_instance

instance : Restores (listDisplay nested target) := by
  unfold listDisplay
  infer_instance

instance : Restores (parenthesized nested target) := by
  simp only [parenthesized]
  infer_instance

instance : Restores (keyValue nested) := by
  unfold keyValue
  infer_instance

instance : Restores (entries nested marker) := by
  unfold entries
  infer_instance

instance (pair : Marker) : Restores (dictionary nested marker pair) := by
  unfold dictionary
  infer_instance

instance : Restores (braces nested) := by
  unfold braces
  infer_instance

instance (delimiter : Delimiter) : Restores (display nested delimiter target) := by
  unfold display
  cases delimiter <;> infer_instance

instance : Restores (namedArgument nested) := by
  unfold namedArgument
  infer_instance

instance (first : Bool) : Restores (plainArgument nested first) := by
  simp only [plainArgument]
  infer_instance

instance (first : Bool) : Restores (argument nested first) := by
  unfold argument
  infer_instance

instance : Restores (arguments nested) := by
  unfold arguments
  infer_instance

instance : Restores (choice nested target) := by
  simp only [choice]
  infer_instance

instance : Restores (conditional nested target) := by
  unfold conditional
  infer_instance

instance (rule : Production) : Restores (production nested rule) := by
  cases rule <;> (unfold production; infer_instance)

end Expressions

instance (levels : Nat) (rule : Production) : Restores (nestedFor levels rule) := by
  induction levels generalizing rule with
  | zero => exact inferInstanceAs (Restores (nest unending))
  | succ levels ih => exact inferInstanceAs (Restores (nest (production (nestedFor levels) rule)))

instance (rule : Production) : Restores (nested rule) := inferInstanceAs (Restores (nestedFor _ rule))

/-! ## Simple statements -/

instance : Restores expression := inferInstanceAs (Restores (tuple _ _))
instance : Restores targetExpression := inferInstanceAs (Restores (require _ _))

instance : Restores endOfStatement := by
  simp only [endOfStatement]
  infer_instance

instance (kind : NodeKind) : Restores (wordStatement kind) := by
  unfold wordStatement
  infer_instance

instance : Restores returnStatement := by
  simp only [returnStatement]
  infer_instance

instance : Restores loadString := by
  unfold loadString
  infer_instance

instance : Restores loadValue := by
  unfold loadValue
  infer_instance

instance : Restores loadValues := by
  simp only [loadValues]
  infer_instance

instance : Restores loadStatement := by
  unfold loadStatement
  infer_instance

instance : Restores assignment := by
  unfold assignment
  infer_instance

@[instance]
theorem restores_unexpectedToken : Restores unexpectedToken := by
  unfold unexpectedToken
  refine .seq inferInstance fun kind? => ?_
  split <;> infer_instance

@[instance]
theorem restores_expressionStatement : Restores expressionStatement := by
  unfold expressionStatement
  refine .seq inferInstance fun statement => .seq inferInstance fun found => ?_
  split
  · infer_instance
  · refine .seq inferInstance fun kind? => ?_
    split <;> infer_instance

@[instance]
theorem restores_simpleStatement : Restores simpleStatement := by
  unfold simpleStatement
  refine .seq inferInstance fun kind? => ?_
  split <;> infer_instance

/-! ## Statements that hold others -/

instance : Restores colon := by
  simp only [colon]
  infer_instance

instance : Restores inlineStatement := inferInstanceAs (Restores (within _ _))

instance : Restores inlineSuite := by
  simp only [inlineSuite]
  infer_instance

section Statements

variable {block : ParseM Unit} [Restores block]

instance : Restores (blockSuite block) := by
  unfold blockSuite
  infer_instance

instance : Restores (suite block) := by
  unfold suite
  infer_instance

instance : Restores (colonAndSuite block) := by
  unfold colonAndSuite
  infer_instance

instance : Restores (branch block) := by
  unfold branch
  infer_instance

instance : Restores (ifStatement block) := by
  simp only [ifStatement]
  infer_instance

instance : Restores (forStatement block) := by
  unfold forStatement
  infer_instance

instance : Restores (functionDeclaration block) := by
  simp only [functionDeclaration]
  infer_instance

instance (afterSemicolon : Bool) {rule : ParseM Unit} [Restores rule] :
    Restores (compoundStatement afterSemicolon rule) := by
  simp only [compoundStatement]
  infer_instance

@[instance]
theorem restores_statementHere : Restores (statementHere block) := by
  unfold statementHere
  refine .seq inferInstance fun scope => .seq inferInstance fun _ => .seq inferInstance fun kind? => ?_
  split <;> infer_instance

instance : Restores (statementIn block) := by
  unfold statementIn
  infer_instance

end Statements

instance (levels : Nat) : Restores (blockFor levels) := by
  induction levels with
  | zero => exact inferInstanceAs (Restores (blockOf unending))
  | succ levels ih => exact inferInstanceAs (Restores (blockOf (statementIn (blockFor levels))))

instance : Restores statement := inferInstanceAs (Restores (statementIn _))

instance : Restores file := by
  unfold file
  infer_instance

end StarlarkSyntax.Grammar
