import StarlarkSyntax.Grammar.Argument
import StarlarkSyntax.Proofs.Twin.Operation
/-!
# Lambdas, comprehensions and arguments side by side
-/

set_option autoImplicit false

namespace StarlarkSyntax.Grammar

open Twin Shape
open scoped Computability

variable {pair : Pair} {nested : Nested} {twin start : Twin pair} {marker marker' : Marker}

/-! ## Lambdas -/

/-- A lambda whose body is looked for once the word has been passed. -/
theorem agree_lambda (agrees : Agrees pair nested) {body : ParseM Bool} {least : Nat}
    (next : twin.next? = some (.reserved .lambdaWord))
    (found : ∀ middle : Twin pair, middle.ahead.length < twin.ahead.length →
      Agree body body middle fun found found' after =>
        found = found' ∧ Grown middle found (Operand least found) after) :
    Agree (lambda nested body) (lambda nested body) twin fun found found' after =>
      found = found' ∧ Grown twin found (Operand 0 found) after := by
  unfold lambda lambdaHead
  rw [bind_assoc]
  refine .bind (agree_mark fun expression expression' _ opened here => ?_)
  simp only [bind_assoc, pure_bind]
  replace next := (next?_congr here).trans next
  refine .bind (agree_advance next (by decide) fun _ _ word _ => ?_)
  refine (runs_lambdaParameters agrees).bind fun _ _ parameters => ?_
  refine .bind (agree_expect (by decide) fun _ _ colon => ?_)
  have head := (word.token.mul parameters).mul (colon.expected (Form.token_mem .colon))
  refine .bind ((agree_require (found _ (here ▸ head.shorter))).mono ?_)
  rintro _ _ _ ⟨-, value⟩
  exact agree_done_true ((opened.first head).mul value.expression)
    (fun _ mem => ⟨mem, trivial, trivial⟩) (fun _ _ => Nat.zero_le _) fun _ _ => rfl

theorem yields_rangeItem (agrees : Agrees pair nested) :
    Yields pair nested.rangeItem (Operand 0) := by
  intro twin
  rw [rangeItem_eq]
  refine .bind (agree_isAt (fun next => ?_) fun _ => ?_)
  · exact agree_lambda agrees next fun middle shorter => yields_rangeItem agrees middle
  · exact (yields_operation agrees false).mono (fun _ _ => Operand.mono (Nat.zero_le _)) twin
termination_by twin => twin.ahead.length

theorem yields_condition (agrees : Agrees pair nested) :
    Yields pair (condition nested) (Operand 0) := by
  intro twin
  refine .bind (agree_isAt (fun next => ?_) fun _ => ?_)
  · exact agree_lambda agrees next fun middle _ => agrees.test false middle
  · exact (yields_operation agrees false).mono (fun _ _ => Operand.mono (Nat.zero_le _)) twin

/-! ## Comprehensions -/

theorem runs_targets (agrees : Agrees pair nested) :
    Runs pair (targets nested) (· ∈ Form.expression) := by
  intro twin
  have star := yields_starExpression agrees true
  refine .bind (agree_mark fun tuple tuple' _ opened _ => ?_)
  refine star.bind fun found _ first => ?_
  have opened := opened.first first
  cases found with
  | false =>
      exact .bind (agree_missing fun _ missed _ => agree_drop (opened.spoil missed) fun _ grown _ =>
        ⟨rfl, grown.mono nofun fun _ => False.elim⟩)
  | true =>
      have opened := opened.mono id fun _ => Operand.expression
      refine .bind (agree_isAt (fun next => ?_) fun _ => ?_)
      · refine .bind ((agree_moreItems star next).mono fun _ _ _ more => ?_)
        refine agree_done (opened.mul more) (fun _ => wellMade_tuple) fun _ grown _ => ⟨rfl, ?_⟩
        exact (grown.node fun made _ => Form.expression_mem rfl).mono nofun fun _ => id
      · exact agree_drop opened fun _ grown _ => ⟨rfl, grown.mono nofun fun _ => id⟩

theorem runs_conditions (agrees : Agrees pair nested) :
    Runs pair (repeatWhile do
      if ← isAtWord .ifWord then
        advance
        require expectedExpression (condition nested)
        pure true
      else pure false) (· ∈ Form.condition∗) := by
  refine runs_repeatWhile fun twin => ?_
  refine .bind (agree_isAt (fun next => ?_) fun _ => ?_)
  · refine .bind (agree_advance next nofun fun _ _ word _ => ?_)
    refine ((yields_condition agrees).require _).bind fun _ _ value => ?_
    exact agree_pure ⟨rfl, (word.token.mul value.expression).mono (fun _ => rfl) fun _ => Form.kstar_of⟩
  · exact agree_pure ⟨rfl, (Grown.refl twin).nothing id⟩

theorem agree_clause (agrees : Agrees pair nested) (kind : NodeKind)
    (next : twin.next? = some (.reserved .forWord)) :
    Agree (clause nested kind) (clause nested kind) twin fun answer answer' after =>
      answer = answer' ∧ Grown twin true (· ∈ Form.clause) after := by
  have range : Yields pair
      (if kind = .generatorExpression then operation nested false else tupleOf nested.rangeItem)
      (Operand 0) := by
    split
    · exact (yields_operation agrees false).mono fun _ _ => Operand.mono (Nat.zero_le _)
    · exact yields_tupleOf (yields_rangeItem agrees)
  refine .bind (agree_advance next nofun fun _ _ word _ => ?_)
  refine (runs_targets agrees).bind fun _ _ targets => ?_
  refine .bind (agree_expect nofun fun found middle inWord => ?_)
  refine (range.require _).bind fun _ _ range => ?_
  refine (runs_conditions agrees _).mono fun _ _ _ ⟨same, conditions⟩ => ⟨same, ?_⟩
  have inWord := inWord.expected (Form.token_mem (.reserved .inWord))
  have head := ((word.token.mul targets).mul inWord).mul range.expression
  exact (head.mul conditions).mono (fun _ => rfl) fun _ => id

/-- The clauses of a comprehension, where the first one comes. -/
theorem agree_clauses (agrees : Agrees pair nested) (kind : NodeKind)
    (next : twin.next? = some (.reserved .forWord)) :
    Agree (repeatWhile do clause nested kind; isAtWord .forWord)
      (repeatWhile do clause nested kind; isAtWord .forWord) twin
      fun _ _ after => Grown twin true (· ∈ Form.clauses) after := by
  refine agree_loop (fun _ _ middle => middle.next? = some (.reserved .forWord) ∧
    Grown twin false (· ∈ Form.clause∗) middle) ?_ ⟨next, (Grown.refl twin).nothing id⟩
  rintro _ _ middle ⟨next, clauses⟩
  rw [bind_assoc]
  refine .bind ((agree_clause agrees kind next).mono ?_)
  rintro _ _ after ⟨-, clause⟩
  have more := clauses.mul clause
  rw [Language.mul_self_kstar_comm] at more
  have clauses_le : Form.clauses ≤ Form.clause∗ := mul_kstar_le_kstar
  refine .bind (agree_isAt (fun again => ?_) fun _ => ?_)
  · exact agree_pure ⟨rfl, ⟨again, more.mono nofun fun _ mem => clauses_le mem⟩, clause.shorter⟩
  · exact agree_pure ⟨rfl, more⟩

/-- A generator that has no brackets of its own. -/
theorem agree_generator (agrees : Agrees pair nested)
    (opened : Open start marker marker' true (· ∈ Form.expression) twin)
    (next : twin.next? = some (.reserved .forWord)) :
    Agree (comprehension nested marker none .generatorExpression)
      (comprehension nested marker' none .generatorExpression) twin
      fun answer answer' after => answer = answer' ∧ Grown start true (· ∈ Form.bare) after := by
  refine .bind ((agree_clauses agrees _ next).mono fun _ _ after clauses => ?_)
  exact agree_done (opened.mul clauses) (fun _ mem => ⟨.inr mem, trivial, trivial⟩)
    fun _ grown _ => ⟨rfl, grown.node fun _ => Form.bare_of⟩

/-! ## Arguments -/

theorem yields_namedArgument (agrees : Agrees pair nested) :
    Yields pair (namedArgument nested) (Found Form.argument) := by
  intro twin
  refine .bind (agree_isAt (fun next => ?_) fun _ => agree_pure ⟨rfl, Grown.refl twin⟩)
  refine .bind (agree_mark fun argument argument' _ opened here => ?_)
  replace next := (next?_congr here).trans next
  refine .bind (agree_advance next (by decide) fun _ _ name _ => ?_)
  have opened := opened.first name.token
  refine .bind (agree_matches (by decide) (fun _ _ equals => ?_) fun _ => ?_)
  · refine agrees.requireTest.bind fun _ _ value => ?_
    refine .bind (agree_done ((opened.mul equals.token).mul value.expression)
      (fun _ mem => ⟨mem, trivial, trivial⟩) fun _ grown _ => agree_pure ⟨rfl, ?_⟩)
    exact grown.node fun made _ => .inl (.inr (Form.node_mem _ made))
  · exact .bind (agree_rollback opened fun _ grown _ => agree_pure ⟨rfl, grown⟩)

theorem yields_plainArgument (agrees : Agrees pair nested) (first : Bool) :
    Yields pair (plainArgument nested first) (Found Form.argument) := by
  intro twin
  refine .bind (agree_mark fun argument argument' _ opened _ => ?_)
  refine .bind (agree_mark fun generator generator' _ inner _ => ?_)
  refine (agrees.test false).bind fun found middle value => ?_
  have inner := inner.first value
  cases found with
  | false =>
      exact .bind (agree_rollbackAround opened inner fun _ grown _ => agree_pure ⟨rfl, grown⟩)
  | true =>
      have inner := inner.mono id fun _ => Operand.expression
      have ended {after : Twin pair}
          (grown : Grown _ true (· ∈ NodeKind.form .argumentExpression) after) :
          Agree (do done argument .argumentExpression; pure true)
            (do done argument' .argumentExpression; pure true) after fun found found' after =>
              found = found' ∧ Grown twin found (Found Form.argument found) after :=
        .bind (agree_done (opened.first grown) (fun _ mem => ⟨mem, trivial, trivial⟩) fun _ grown _ =>
          agree_pure ⟨rfl, grown.node fun made _ => .inl (.inl (Form.node_mem _ made))⟩)
      have single : Agree (do drop generator; done argument .argumentExpression; pure true)
          (do drop generator'; done argument' .argumentExpression; pure true) middle
            fun found found' after => found = found' ∧ Grown twin found (Found Form.argument found) after :=
        .bind (agree_drop inner fun _ grown _ => ended (grown.mono id fun _ => .inl))
      cases first with
      | false => exact single
      | true =>
          refine .bind (agree_isAt (fun next => ?_) fun _ => single)
          refine .bind ((agree_generator agrees inner next).mono ?_)
          rintro _ _ after ⟨-, grown⟩
          exact ended (grown.mono id fun _ => .inr)

theorem yields_argument (agrees : Agrees pair nested) (first : Bool) :
    Yields pair (argument nested first) (Found Form.argument) := by
  intro twin
  refine .bind (agree_isAtAny (fun kind mem next => ?_) fun _ => ?_)
  · refine .bind (agree_mark fun argument argument' _ opened here => ?_)
    replace next := (next?_congr here).trans next
    refine .bind (agree_advance next ?_ fun _ _ star _ => ?_)
    · rintro rfl
      simp at mem
    refine agrees.requireTest.bind fun _ _ value => ?_
    have opened := opened.first (star.token.mono id fun _ star => Form.oneOf_of_token star mem)
    refine .bind (agree_done (opened.mul value.expression) (fun _ mem => ⟨mem, trivial, trivial⟩)
      fun _ grown _ => agree_pure ⟨rfl, grown.node fun made _ => .inr (Form.node_mem _ made)⟩)
  · refine (yields_namedArgument agrees).bind fun found _ named => ?_
    cases found with
    | true => exact agree_pure ⟨rfl, named⟩
    | false =>
        refine (yields_plainArgument agrees first _).mono ?_
        rintro found _ after ⟨rfl, plain⟩
        refine ⟨rfl, (named.append plain fun made made' none argument => ?_).mono (fun is => is) fun _ => id⟩
        exact (show made = [] from none) ▸ argument

/-- The rounds of the arguments. -/
theorem agree_moreArguments (agrees : Agrees pair nested) :
    Agree (loop (fun first => do
      if ← isAt rpar then pure (false, first)
      else if first then pure (← argument nested true, false)
      else if !(← matches? .comma) then
        missing "expected ',' or ')'"
        pure (false, false)
      else if ← isAt rpar then pure (false, false)
      else pure (← argument nested false, false)) true)
      (loop (fun first => do
      if ← isAt rpar then pure (false, first)
      else if first then pure (← argument nested true, false)
      else if !(← matches? .comma) then
        missing "expected ',' or ')'"
        pure (false, false)
      else if ← isAt rpar then pure (false, false)
      else pure (← argument nested false, false)) true) twin
      fun _ _ after => Grown twin false (· ∈ Form.listed Form.argument Form.argument) after := by
  have none : Grown twin false (Several Form.argument true) twin := .refl twin
  refine agree_loop (fun first first' middle => first = first' ∧
    Grown twin false (Several Form.argument first) middle) ?_ ⟨rfl, none⟩
  rintro first _ middle ⟨rfl, several⟩
  refine .bind (agree_isAt (fun _ => ?_) fun _ => ?_)
  · exact agree_pure ⟨rfl, several.mono id fun _ => Several.listed⟩
  cases first with
  | true => exact agree_nextItem (yields_argument agrees true) several.omitted le_rfl
  | false =>
      refine .bind (agree_matches nofun (fun _ _ comma => ?_) fun _ => ?_)
      · have begun := several.mul comma.token
        refine .bind (agree_isAt (fun _ => agree_pure ⟨rfl, ?_⟩) fun _ => ?_)
        · exact begun.optional.mono nofun fun _ => Form.listed_of_begun
        · exact agree_nextItem (yields_argument agrees false) begun.optional comma.shorter.le
      · refine .bind (agree_missing fun _ missed _ => agree_pure ⟨rfl, ?_⟩)
        exact several.append missed fun _ _ _ => False.elim

/-- Arguments always pass their parenthesis. -/
theorem agree_arguments (agrees : Agrees pair nested) (next : twin.next? = some lpar) :
    Agree (arguments nested) (arguments nested) twin fun answer answer' after =>
      answer = answer' ∧ Grown twin true (· ∈ Form.node .argumentList) after := by
  refine .bind (agree_mark fun list list' _ opened here => ?_)
  replace next := (next?_congr here).trans next
  refine .bind (agree_advance next (by decide) fun _ _ bracket _ => ?_)
  refine .bind ((agree_moreArguments agrees).mono fun _ _ _ items => ?_)
  refine .bind (agree_expect nofun fun _ _ close => ?_)
  have all := ((opened.first bracket.token).mul items).mul (close.expected (Form.token_mem rpar))
  exact agree_done all (fun _ mem => ⟨mem, trivial, trivial⟩) fun _ grown _ =>
    ⟨rfl, (grown.node fun made _ => Form.node_mem _ made).mono (fun _ => rfl) fun _ => id⟩

end StarlarkSyntax.Grammar
