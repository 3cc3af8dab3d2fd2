import StarlarkSyntax.Proofs.Print.Slice
import StarlarkSyntax.Proofs.Progress.Expression
import StarlarkSyntax.Proofs.Recast.Basic
/-!
# Tuples, parameters and subscripts that are read as targets

Rules recast names where the nested rules do (`Recasting`). The rules from tuples to subscripts are the same
twice, or are made of rules that may be for a target instead of a value; so they are put together here one after
the other, in the order of the grammar.
-/

set_option autoImplicit false

namespace StarlarkSyntax.Grammar

open Builder (Alike)

/-- The same production, but that it may be for a target instead of a value. -/
inductive Production.Recast : Production → Production → Prop
  | test {target target' : Bool} (le : target ≤ target') : Recast (.test target) (.test target')
  | display (delimiter : Delimiter) {target target' : Bool} (le : target ≤ target') :
      Recast (.display delimiter target) (.display delimiter target')
  | arguments : Recast .arguments .arguments
  | negation {target target' : Bool} (le : target ≤ target') : Recast (.negation target) (.negation target')
  | signed {target target' : Bool} (le : target ≤ target') : Recast (.signed target) (.signed target')
  | exponent {target target' : Bool} (le : target ≤ target') : Recast (.exponent target) (.exponent target')

/-- The nested rules recast names at this level, and they end. -/
structure Recasting (nested : Nested) (parser parser' : Parser) (level : Nat) : Prop where
  follows : Follows nested level
  recasts : ∀ {rule rule' : Production}, rule.Recast rule' → Recasts parser parser' level (nested rule) (nested rule')

theorem nameKind_recast {target target' : Bool} (le : target ≤ target') :
    (Completion.node (nameKind target)).Recast (.node (nameKind target')) := by
  cases target
  · cases target'
    · exact .same _
    · exact .name
  · cases le rfl
    exact .same _

section Rules

variable {nested : Nested} {parser parser' : Parser} {level : Nat} {target target' : Bool}
  {marker marker' : Marker}

namespace Recasting

theorem test (recasts : Recasting nested parser parser' level) (le : target ≤ target') :
    Recasts parser parser' level (Grammar.test nested target) (Grammar.test nested target') :=
  recasts.recasts (.test le)

theorem value (recasts : Recasting nested parser parser' level) :
    Recasts parser parser' level (Grammar.test nested false) (Grammar.test nested false) :=
  recasts.test (Bool.le_refl false)

theorem requireTest (recasts : Recasting nested parser parser' level) :
    Recasts parser parser' level (Grammar.requireTest nested) (Grammar.requireTest nested) :=
  recasts.value.require expectedExpression

end Recasting

/-! ## Tuples -/

/-- The rounds after the first item of a tuple. -/
theorem recasts_moreItems {item item' : ParseM Bool} (recasts : Recasts parser parser' level item item') :
    Recasts parser parser' level
      (repeatWhile do
        if !(← matches? .comma) then pure false
        else
          let place ← mark
          if ← item then
            drop place
            pure true
          else
            rollback place
            pure false)
      (repeatWhile do
        if !(← matches? .comma) then pure false
        else
          let place ← mark
          if ← item' then
            drop place
            pure true
          else
            rollback place
            pure false) := by
  refine .repeatWhile ((recasts_matches? .comma).bind fun comma => .ite (fun _ => .pure false) fun _ => ?_)
  refine recasts_mark fun place => recasts.bind fun found => .ite (fun _ => ?_) fun _ => ?_
  · exact (recasts_drop place).bind fun _ => .pure true
  · exact (recasts_rollback place).bind fun _ => .pure false

theorem recasts_tupleOf {item item' : ParseM Bool} (recasts : Recasts parser parser' level item item') :
    Recasts parser parser' level (tupleOf item) (tupleOf item') := by
  refine recasts_mark fun tuple => recasts.bind fun found => .ite (fun _ => ?_) fun _ => ?_
  · exact (recasts_drop tuple).bind fun _ => .pure false
  refine (recasts_isAt .comma).bind fun comma => .ite (fun _ => ?_) fun _ => ?_
  · exact (recasts_drop tuple).bind fun _ => .pure true
  · refine (recasts_moreItems recasts).bind fun _ => ?_
    exact (recasts_done tuple (.same _)).bind fun _ => .pure true

theorem recasts_tuple (recasts : Recasting nested parser parser' level) (le : target ≤ target') :
    Recasts parser parser' level (tuple nested target) (tuple nested target') :=
  recasts_tupleOf (recasts.test le)

/-! ## Parameters -/

theorem recasts_parameter (recasts : Recasting nested parser parser' level) (stop : Kind) :
    Recasts parser parser' level (parameter nested stop) (parameter nested stop) := by
  refine recasts_mark fun {marker marker'} parameter => ?_
  have made (kind : NodeKind) : Recasts parser parser' level (do done marker kind; pure true)
      (do done marker' kind; pure true) :=
    (recasts_done parameter (.same _)).bind fun _ => .pure true
  refine (recasts_matches? _).bind fun _ => .ite (fun _ => ?_) fun _ => ?_
  · exact (recasts_expect _ _).bind fun _ => made _
  refine (recasts_matches? _).bind fun _ => .ite (fun _ => ?_) fun _ => ?_
  · exact (recasts_matches? _).bind fun _ => made _
  refine (recasts_matches? _).bind fun _ => .ite (fun _ => ?_) fun _ => ?_
  · refine (recasts_matches? _).bind fun _ => .ite (fun _ => ?_) fun _ => made _
    exact recasts.requireTest.bind fun _ => made _
  refine (recasts_skipUntil _).bind fun _ => .ite (fun _ => ?_) fun _ => ?_
  · exact (recasts_fault parameter _).bind fun _ => .pure true
  · exact (recasts_drop parameter).bind fun _ => .pure false

theorem recasts_parameters (recasts : Recasting nested parser parser' level) (stop : Kind) :
    Recasts parser parser' level (parameters nested stop) (parameters nested stop) := by
  have parameter (first : Bool) : Recasts parser parser' level (do pure (← parameter nested stop, first))
      (do pure (← parameter nested stop, first)) :=
    (recasts_parameter recasts stop).bind fun _ => .pure _
  refine (Recasts.loop (fun first => ?_) true).bind fun _ => .pure ()
  refine recasts_atEnd.bind fun _ => (recasts_isAt stop).bind fun _ => .ite (fun _ => .pure _) fun _ => ?_
  refine .ite (fun _ => parameter false) fun _ => ?_
  refine (recasts_expect _ _).bind fun _ => .ite (fun _ => .pure _) fun _ => ?_
  exact (recasts_isAt stop).bind fun _ => .ite (fun _ => .pure _) fun _ => parameter false

theorem recasts_lambdaParameters (recasts : Recasting nested parser parser' level) :
    Recasts parser parser' level (lambdaParameters nested) (lambdaParameters nested) :=
  recasts_mark fun list => (recasts_parameters recasts .colon).bind fun _ =>
    recasts_done list (.same _)

/-! ## Subscripts -/

/-- Slices are told from subscripts by the tokens alone. -/
theorem sliceAhead_recast {value target : Builder} (alike : InStep parser parser' level value target)
    (n depth lambdas : Nat) : sliceAhead target n depth lambdas = sliceAhead value n depth lambdas := by
  rw [sliceAhead_step, sliceAhead_step value, alike.nth?]
  cases seen : value.nth? n with
  | none => rfl
  | some kind =>
      cases passed : passColon depth lambdas kind with
      | error answer => simp only [passed]
      | ok state =>
          simp only [passed]
          have fewer := value.sub_lt_of_nth? seen
          exact sliceAhead_recast alike (n + 1) state.1 state.2
termination_by value.remaining - n

theorem recasts_checkItemEnd : Recasts parser parser' level checkItemEnd checkItemEnd := by
  refine (recasts_isAtAny _).bind fun _ => .ite (fun _ => .pure true) fun _ => ?_
  exact (recasts_missing _).bind fun _ => .pure false

theorem recasts_sliceItem (recasts : Recasting nested parser parser' level) :
    Recasts parser parser' level (sliceItem nested) (sliceItem nested) := by
  refine recasts_mark fun {marker marker'} item => recasts.value.bind fun found => ?_
  have made : Recasts parser parser' level (done marker .sliceItem) (done marker' .sliceItem) :=
    recasts_done item (.same _)
  refine (recasts_matches? _).bind fun _ => .ite (fun _ => ?_) fun _ => ?_
  · refine recasts.value.bind fun _ => (recasts_matches? _).bind fun _ => .ite (fun _ => ?_) fun _ => made
    exact recasts.value.bind fun _ => made
  · exact .ite (fun _ => (recasts_missing _).bind fun _ => made) fun _ => made

theorem recasts_sliceTail (recasts : Recasting nested parser parser' level) :
    Recasts parser parser' level (sliceTail nested) (sliceTail nested) := by
  refine (Recasts.repeatWhile ?_).bind fun _ => (recasts_expect _ _).bind fun _ => .pure ()
  refine (recasts_matches? _).bind fun _ => .ite (fun _ => .pure false) fun _ => ?_
  refine (recasts_isAt _).bind fun _ => .ite (fun _ => .pure false) fun _ => ?_
  exact (recasts_sliceItem recasts).bind fun _ => recasts_checkItemEnd

theorem recasts_sliceStart (recasts : Recasting nested parser parser' level) :
    Recasts parser parser' level (sliceStart nested) (sliceStart nested) :=
  (recasts_isAt _).bind fun _ => .ite (fun _ => recasts_emptyNode _) fun _ => recasts.requireTest

theorem recasts_sliceStop (recasts : Recasting nested parser parser' level) :
    Recasts parser parser' level (sliceStop nested) (sliceStop nested) := by
  have check : Recasts parser parser' level
      (do if !(← isAtAny [rbracket, .colon, .comma]) then missing "expected ':' or ']'")
      (do if !(← isAtAny [rbracket, .colon, .comma]) then missing "expected ':' or ']'") :=
    (recasts_isAtAny _).bind fun _ => .ite (fun _ => recasts_missing _) fun _ => .pure ()
  refine (recasts_isAt _).bind fun _ => .ite (fun _ => ?_) fun _ => ?_
  · exact (recasts_emptyNode _).bind fun _ => check
  · exact recasts.value.bind fun _ => check

theorem recasts_sliceStep (recasts : Recasting nested parser parser' level) :
    Recasts parser parser' level (sliceStep nested) (sliceStep nested) := by
  refine (recasts_matches? _).bind fun _ => .ite (fun _ => ?_) fun _ => .pure ()
  exact recasts.value.bind fun _ => .pure ()

theorem recasts_sliceRest (recasts : Recasting nested parser parser' level)
    (item : SamePlace parser parser' marker marker') :
    Recasts parser parser' level (sliceRest nested marker) (sliceRest nested marker') :=
  (recasts_done item (.same _)).bind fun _ => recasts_checkItemEnd.bind fun _ => recasts_sliceTail recasts

theorem recasts_sliceFromColon (recasts : Recasting nested parser parser' level)
    (item : SamePlace parser parser' marker marker') :
    Recasts parser parser' level (sliceFromColon nested marker) (sliceFromColon nested marker') := by
  refine recasts_advance.bind fun _ => (recasts_isAt _).bind fun _ => .ite (fun _ => ?_) fun _ => ?_
  · exact (recasts_emptyNode _).bind fun _ => (recasts_done item (.same _)).bind fun _ => recasts_advance
  · exact (recasts_sliceStop recasts).bind fun _ => (recasts_sliceStep recasts).bind fun _ =>
      recasts_sliceRest recasts item

theorem recasts_slice (recasts : Recasting nested parser parser' level) :
    Recasts parser parser' level (slice nested) (slice nested) := by
  refine recasts_mark fun item => (recasts_sliceStart recasts).bind fun _ => ?_
  refine (recasts_isAt _).bind fun _ => .ite (fun _ => ?_) fun _ => recasts_sliceRest recasts item
  exact recasts_sliceFromColon recasts item

theorem recasts_subscript (recasts : Recasting nested parser parser' level) :
    Recasts parser parser' level (subscript nested) (subscript nested) := by
  refine (recasts_look fun _ _ alike => sliceAhead_recast alike 0 0 0).bind fun _ => .ite (fun _ => ?_) fun _ => ?_
  · exact (recasts_slice recasts).bind fun _ => .pure _
  · refine ((recasts_tuple recasts (Bool.le_refl false)).require _).bind fun _ => ?_
    exact (recasts_expect _ _).bind fun _ => .pure _

/-! ## Primary expressions -/

theorem recasts_primary (recasts : Recasting nested parser parser' level) (le : target ≤ target') :
    Recasts parser parser' level (primary nested target) (primary nested target') := by
  have token {kind kind' : NodeKind} (kinds : (Completion.node kind).Recast (.node kind')) :
      Recasts parser parser' level (do tokenNode kind; pure true) (do tokenNode kind'; pure true) :=
    (recasts_tokenNode kinds).bind fun _ => .pure true
  refine recasts_current?.bind fun kind? => ?_
  split
  · exact token (nameKind_recast le)
  · exact token (.same _)
  · exact token (.same _)
  · exact token (.same _)
  · exact token (.same _)
  · exact recasts.recasts (.display _ le)
  · exact .pure false

end Rules

end StarlarkSyntax.Grammar
