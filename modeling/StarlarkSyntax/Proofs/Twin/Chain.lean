import StarlarkSyntax.Grammar.Expression
import StarlarkSyntax.Proofs.Print.Slice
import StarlarkSyntax.Proofs.Progress.Expression
import StarlarkSyntax.Proofs.Twin.Rule
/-!
# Chains side by side

The rules from tuples to chains of links do the same in two texts whose tokens are the same up to the end
of the statement, when the nested rules do (`Agrees`).
-/

set_option autoImplicit false

namespace StarlarkSyntax.Grammar

open Twin Shape
open Layout (Piece)
open scoped Computability

variable {pair : Pair}

/-- Does a token come at which the rule for a production may be followed? -/
def Production.Ready : Production → Twin pair → Prop
  | .test _, _ | .exponent _, _ => True
  | .display delimiter _, twin => twin.next? = some (.opening delimiter)
  | .arguments, twin => twin.next? = some lpar
  | .negation _, twin => twin.next? = some (.reserved .notWord)
  | .signed _, twin => ∃ sign ∈ signs, twin.next? = some sign

/-- The least level of what the rule for a production finds. -/
def Production.least : Production → Nat
  | .test _ | .arguments => 0
  | .negation _ => 3
  | .signed _ | .exponent _ => 11
  | .display .. => primaryLevel

/-- What may stand before a link. -/
def head (target : Bool) : Language Shape :=
  if target then Form.callee else Form.base

theorem base_le_head (target : Bool) : Form.base ≤ head target := by
  cases target
  · exact le_rfl
  · exact le_sup_left

theorem head_le_callee (target : Bool) : head target ≤ Form.callee := by
  cases target
  · exact le_sup_left
  · exact le_rfl

/-- An expression that is no operation and may stand before a link, or nothing. -/
def Primary (target found : Bool) (made : List Shape) : Prop :=
  Operand primaryLevel found made ∧ (found = true → made ∈ head target)

/-- What the rule for a production finds. -/
def Production.Finds : Production → Bool → List Shape → Prop
  | .arguments, _ => (· ∈ Form.node .argumentList)
  | .display .., found => Primary false found
  | production, found => Operand production.least found

/-- The nested rules do the same in both texts. Arguments are always found where they begin. -/
def Agrees (pair : Pair) (nested : Nested) : Prop :=
  ∀ (production : Production) (twin : Twin pair), production.Ready twin →
    Agree (nested production) (nested production) twin fun found found' after =>
      found = found' ∧ (production = .arguments → found = true) ∧
        Grown twin found (production.Finds found) after

section Rules

variable {nested : Nested} {twin start : Twin pair} {marker marker' : Marker}

/-- The rule for a production where it may be followed. -/
theorem Agrees.at (agrees : Agrees pair nested) (production : Production)
    (ready : production.Ready twin) :
    Agree (nested production) (nested production) twin fun found found' after =>
      found = found' ∧ Grown twin found (production.Finds found) after :=
  (agrees production twin ready).mono fun _ _ _ ⟨same, _, grown⟩ => ⟨same, grown⟩

theorem Agrees.test (agrees : Agrees pair nested) (target : Bool) :
    Yields pair (test nested target) (Operand 0) :=
  fun _ => agrees.at (.test target) trivial

theorem Agrees.requireTest (agrees : Agrees pair nested) :
    Runs pair (requireTest nested) (Operand 0 true) :=
  (agrees.test false).require expectedExpression

/-! ## Tuples -/

/-- The rounds after the first item of a tuple, where there is a comma. -/
theorem agree_moreItems {item : ParseM Bool} {least : Nat} (yields : Yields pair item (Operand least))
    (next : twin.next? = some .comma) :
    Agree (repeatWhile do
      if !(← matches? .comma) then pure false
      else
        let place ← mark
        if ← item then
          drop place
          pure true
        else
          rollback place
          pure false)
      (repeatWhile do
      if !(← matches? .comma) then pure false
      else
        let place ← mark
        if ← item then
          drop place
          pure true
        else
          rollback place
          pure false) twin fun _ _ after =>
        Grown twin false (· ∈ Form.token .comma * Form.listed Form.expression Form.expression) after := by
  -- At first a comma comes; afterwards there is an expression after each of the commas.
  refine agree_repeatWhile (fun middle => middle.next? = some .comma ∧ Grown twin false (· = []) middle ∨
    Grown twin false (· ∈ Form.token .comma * Form.separated Form.expression .comma Form.expression) middle) _
    (fun round begun => ?_) (.inl ⟨next, .refl twin⟩)
  refine .bind (agree_matches nofun (fun body after comma => ?_) fun none => ?_)
  · have comma := comma.token
    have last : Grown twin false (· ∈ Form.token .comma * Form.listed Form.expression Form.expression) after := by
      rcases begun with ⟨-, nothing⟩ | several
      · exact (nothing.append comma fun _ _ none mem => none ▸ Form.mul_optional_of mem).mono nofun fun _ => id
      · refine (several.append comma ?_).mono nofun fun _ => id
        rintro _ _ ⟨first, begun, others, several, rfl⟩ comma
        rw [List.append_assoc]
        exact Language.append_mem_mul begun (Form.listed_of_comma several comma)
    refine .bind (agree_mark fun place place' middle opened _ => ?_)
    refine yields.bind fun found after grown => ?_
    have opened := opened.first grown
    cases found with
    | true =>
        refine .bind (agree_drop opened fun after grown _ => agree_pure ⟨rfl, .inr ?_, (comma.more grown).shorter⟩)
        have more := comma.mul grown.expression
        rcases begun with ⟨-, nothing⟩ | several
        · refine (nothing.append more ?_).mono nofun fun _ => id
          rintro _ _ rfl ⟨first, begun, value, is, rfl⟩
          rw [List.nil_append]
          exact Language.append_mem_mul begun (Form.separated_of_first is)
        · refine (several.append more ?_).mono nofun fun _ => id
          rintro _ _ ⟨first, begun, others, several, rfl⟩ more
          rw [List.append_assoc]
          exact Language.append_mem_mul begun (Form.separated_append several more)
    | false =>
        refine .bind (agree_rollback opened fun after grown _ => agree_pure ⟨rfl, ?_⟩)
        exact last.append grown fun _ _ mem none => by rw [none, List.append_nil]; exact mem
  · rcases begun with ⟨comma, -⟩ | several
    · exact absurd comma none
    · refine agree_pure ⟨rfl, several.mono id ?_⟩
      rintro _ ⟨first, begun, others, several, rfl⟩
      exact Language.append_mem_mul begun (Form.listed_of_separated several)

/-- A tuple without parentheses. -/
theorem wellMade_tuple {made : List Shape}
    (mem : made ∈ Form.expression * (Form.token .comma * Form.listed Form.expression Form.expression)) :
    (Shape.node .tupleExpression none made).WellMade := by
  rw [← mul_assoc] at mem
  exact ⟨.inr mem, trivial, trivial⟩

theorem yields_tupleOf {item : ParseM Bool} {least : Nat} (yields : Yields pair item (Operand least)) :
    Yields pair (tupleOf item) (Operand 0) := by
  intro twin
  refine .bind (agree_mark fun tuple tuple' _ opened _ => ?_)
  refine yields.bind fun found middle grown => ?_
  have opened := (opened.first grown).mono id fun _ => Operand.mono (Nat.zero_le least)
  cases found with
  | false =>
      refine .bind (agree_drop opened fun after grown _ => ?_)
      exact agree_pure ⟨rfl, grown⟩
  | true =>
      refine .bind (agree_isAt (fun next => ?_) fun _ => ?_)
      · refine .bind ((agree_moreItems yields next).mono fun _ _ after more => ?_)
        have items := (opened.mono id fun _ => Operand.expression).mul more
        exact agree_done_true items (fun _ => wellMade_tuple) (fun _ _ => Nat.zero_le _) fun _ _ => rfl
      · refine .bind (agree_drop opened fun after grown _ => ?_)
        exact agree_pure ⟨rfl, grown⟩

theorem yields_tuple (agrees : Agrees pair nested) (target : Bool) :
    Yields pair (tuple nested target) (Operand 0) :=
  yields_tupleOf (agrees.test target)

/-! ## Lists -/

/-- The parts of a list so far: there is none yet, or there are some with commas between them. -/
def Several (form : Language Shape) : Bool → List Shape → Prop
  | true => (· = [])
  | false => (· ∈ Form.separated form .comma form)

theorem Several.listed {form : Language Shape} {first : Bool} {made : List Shape}
    (several : Several form first made) : made ∈ Form.listed form form := by
  cases first with
  | true => exact (show made = [] from several) ▸ Form.listed_nil form form
  | false => exact Form.listed_of_separated several

/-- A part of a list that may follow; where there is none, the list ends. -/
theorem agree_nextItem {item : ParseM Bool} {form : Language Shape} {passed : Bool} {round middle : Twin pair}
    (yields : Yields pair item (Found form))
    (begun : Grown start passed (· ∈ Form.optional (Form.separated form .comma form * Form.token .comma)) middle)
    (le : middle.ahead.length ≤ round.ahead.length) :
    Agree (do pure (← item, false)) (do pure (← item, false)) middle
      fun answer answer' after => answer.1 = answer'.1 ∧
        if answer.1 then
          (answer.2 = answer'.2 ∧ Grown start false (Several form answer.2) after) ∧
            after.ahead.length < round.ahead.length
        else Grown start false (· ∈ Form.listed form form) after := by
  refine yields.bind fun found after part => agree_pure ⟨rfl, ?_⟩
  cases found with
  | true =>
      refine ⟨⟨rfl, ?_⟩, part.shorter.trans_le le⟩
      exact (begun.append part fun _ _ => Form.separated_of_begun).mono nofun fun _ => id
  | false =>
      refine (begun.append part fun made made' begun none => ?_).mono nofun fun _ => id
      rw [show made' = [] from none, List.append_nil]
      exact Form.listed_of_begun begun

/-! ## Parameters -/

theorem yields_parameter (agrees : Agrees pair nested) (stop : Kind) :
    Yields pair (parameter nested stop) (Found Form.parameter) := by
  intro twin
  have end' {parameter parameter' : Marker} {form : Language Shape} {after : Twin pair}
      (opened : Open twin parameter parameter' true (· ∈ form) after) {kind : NodeKind}
      (is : ∀ made ∈ form, (Shape.node kind none made).WellMade)
      (sort : ∀ made : List Shape, [Shape.node kind none made] ∈ Form.parameter) :
      Agree (do done parameter kind; pure true) (do done parameter' kind; pure true) after
        fun found found' after => found = found' ∧ Grown twin found (Found Form.parameter found) after :=
    .bind (agree_done opened is fun after grown _ =>
      agree_pure ⟨rfl, grown.node fun made _ => sort made⟩)
  refine .bind (agree_mark fun parameter parameter' _ opened _ => ?_)
  refine .bind (agree_matches nofun (fun body after stars => ?_) fun _ => ?_)
  · have opened := opened.first stars.token
    refine .bind (agree_expect nofun fun found after name => ?_)
    have name := name.expected (Form.token_mem .identifier)
    exact end' (opened.mul name) (fun _ mem => ⟨mem, trivial, trivial⟩) fun _ => .inr (Form.node_mem _ _)
  refine .bind (agree_matches nofun (fun body after star => ?_) fun _ => ?_)
  · have opened := opened.first star.token
    have sort (made : List Shape) : [.node .variadicParameter none made] ∈ Form.parameter :=
      .inl (.inr (Form.node_mem _ made))
    refine .bind (agree_matches nofun (fun body after name => ?_) fun _ => ?_)
    · exact end' (opened.mul name.token.optional) (fun _ mem => ⟨mem, trivial, trivial⟩) sort
    · exact end' opened (fun _ mem => ⟨Form.mul_optional_of mem, trivial, trivial⟩) sort
  refine .bind (agree_matches nofun (fun body after name => ?_) fun _ => ?_)
  · have opened := opened.first name.token
    refine .bind (agree_matches nofun (fun body after equals => ?_) fun _ => ?_)
    · refine agrees.requireTest.bind fun _ after value => ?_
      exact end' ((opened.mul equals.token).mul value.expression) (fun _ mem => ⟨mem, trivial, trivial⟩)
        fun _ => .inl (.inl (.inr (Form.node_mem _ _)))
    · exact end' opened (fun _ mem => ⟨mem, trivial, trivial⟩)
        fun _ => .inl (.inl (.inl (Form.node_mem _ _)))
  refine (yields_skipUntil (by simp)).bind fun found after skipped => ?_
  have opened := opened.first skipped
  cases found with
  | true =>
      exact .bind (agree_fault opened fun after grown _ =>
        agree_pure ⟨rfl, grown.mono id fun _ => False.elim⟩)
  | false =>
      exact .bind (agree_drop opened fun after grown _ =>
        agree_pure ⟨rfl, grown⟩)

theorem runs_parameters (agrees : Agrees pair nested) (stop : Kind) :
    Runs pair (parameters nested stop) (· ∈ Form.parameters) := by
  intro twin
  have none : Grown twin false (Several Form.parameter true) twin := .refl twin
  refine .bind ((agree_loop (fun first first' middle => first = first' ∧
    Grown twin false (Several Form.parameter first) middle) ?_ ⟨rfl, none⟩).mono
    fun _ _ _ grown => agree_pure ⟨rfl, grown⟩)
  rintro first _ middle ⟨rfl, several⟩
  have ended := several.mono id fun _ => Several.listed
  refine .bind (agree_atEnd (fun _ => ?_) fun _ _ => ?_)
  · refine .bind (agree_isAt (fun _ => ?_) fun _ => ?_)
    all_goals exact agree_pure ⟨rfl, ended⟩
  refine .bind (agree_isAt (fun _ => agree_pure ⟨rfl, ended⟩) fun _ => ?_)
  cases first with
  | true => exact agree_nextItem (yields_parameter agrees stop) several.omitted le_rfl
  | false =>
      refine .bind (agree_expect nofun fun found next comma => ?_)
      have begun := several.mul (comma.expected (Form.token_mem .comma))
      cases found with
      | false => exact agree_pure ⟨rfl, begun.optional.mono id fun _ => Form.listed_of_begun⟩
      | true =>
          refine .bind (agree_isAt (fun _ => agree_pure ⟨rfl, ?_⟩) fun _ => ?_)
          · exact begun.optional.mono nofun fun _ => Form.listed_of_begun
          · exact agree_nextItem (yields_parameter agrees stop) begun.optional comma.shorter.le

theorem runs_lambdaParameters (agrees : Agrees pair nested) :
    Runs pair (lambdaParameters nested) (· ∈ Form.nodeOf .parameterList Form.parameters) := by
  intro twin
  refine .bind (agree_mark fun list list' _ opened _ => ?_)
  refine (runs_parameters agrees _).bind fun _ _ grown => ?_
  refine agree_done (opened.first grown) (fun made mem => ⟨.inl mem, trivial, trivial⟩)
    fun _ grown _ => ⟨rfl, grown.mono id ?_⟩
  rintro _ ⟨made, rfl, mem⟩
  exact ⟨made, mem, rfl⟩

/-! ## Subscripts -/

/-- Nothing is made, unless something is missing. -/
theorem agree_checkItemEnd (twin : Twin pair) :
    Agree checkItemEnd checkItemEnd twin fun found found' after =>
      found = found' ∧ Grown twin false (fun made => found = true ∧ made = []) after := by
  refine .bind (agree_isAtAny (fun _ _ _ => ?_) fun _ => ?_)
  · exact agree_pure ⟨rfl, (Grown.refl twin).mono id fun _ none => ⟨rfl, none⟩⟩
  · exact .bind (agree_missing fun after grown _ =>
      agree_pure ⟨rfl, grown.mono id fun _ => False.elim⟩)

/-- What is found of an expression that may be left out. -/
theorem Agrees.optionalTest (agrees : Agrees pair nested) :
    Yields pair (Grammar.test nested false) fun _ => (· ∈ Form.optional Form.expression) := by
  refine (agrees.test false).mono fun found made operand => ?_
  cases found with
  | false => exact (show made = [] from operand) ▸ Form.optional_nil _
  | true => exact Form.optional_of operand.expression

/-- An item of a slice is closed. -/
theorem agree_itemEnd {passed : Bool}
    (opened : Open start marker marker' passed (· ∈ NodeKind.form .sliceItem) twin) :
    Agree (done marker .sliceItem) (done marker' .sliceItem) twin
      fun answer answer' after => answer = answer' ∧ Grown start passed (· ∈ Form.node .sliceItem) after :=
  agree_done opened (fun _ mem => ⟨mem, trivial, trivial⟩) fun _ grown _ =>
    ⟨rfl, grown.node fun made _ => Form.node_mem .sliceItem made⟩

theorem runs_sliceItem (agrees : Agrees pair nested) :
    Runs pair (sliceItem nested) (· ∈ Form.node .sliceItem) := by
  intro twin
  refine .bind (agree_mark fun item item' _ opened _ => ?_)
  have ended {passed : Bool} {after : Twin pair}
      (opened : Open twin item item' passed (· ∈ NodeKind.form .sliceItem) after) :
      Agree (done item .sliceItem) (done item' .sliceItem) after
        fun answer answer' after => answer = answer' ∧ Grown twin false (· ∈ Form.node .sliceItem) after :=
    (agree_itemEnd opened).mono fun _ _ _ ⟨same, grown⟩ => ⟨same, grown.mono nofun fun _ => id⟩
  refine (agrees.test false).bind fun found middle first => ?_
  refine .bind (agree_matches nofun (fun _ _ colon => ?_) fun _ => ?_)
  · have begins : Grown _ found (· ∈ Form.bound) middle := first.mono id fun made operand => by
      cases found with
      | false => exact (show made = [] from operand) ▸ Form.optional_nil _
      | true => exact Form.bound_of_expression (Form.optional_of operand.expression)
    refine agrees.optionalTest.bind fun _ _ second => ?_
    have opened := ((opened.first begins).mul colon.token).mul (second.mono id fun _ => Form.bound_of_expression)
    refine .bind (agree_matches nofun (fun _ _ colon => ?_) fun _ => ?_)
    · exact agrees.optionalTest.bind fun _ _ third =>
        ended ((opened.mul (colon.token.mul third).optional).mono id fun _ => .inr)
    · exact ended (opened.mono id fun _ mem => .inr (Form.mul_optional_of mem))
  · have opened := opened.first first
    cases found with
    | false => exact .bind (agree_missing fun _ missed _ =>
        ended ((opened.spoil missed).mono id fun _ => False.elim))
    | true => exact ended (opened.mono id fun _ operand => .inl operand.expression)

/-- The items of a slice after the first, and the bracket that closes it. -/
theorem runs_sliceTail (agrees : Agrees pair nested) : Runs pair (sliceTail nested)
    (· ∈ (Form.token .comma * Form.node .sliceItem)∗ * Form.optional (Form.token .comma)
      * Form.token rbracket) := by
  intro twin
  refine .bind ((agree_repeatWhile (Grown twin false (· ∈ (Form.token .comma * Form.node .sliceItem)∗))
    (Grown twin false (· ∈ (Form.token .comma * Form.node .sliceItem)∗ * Form.optional (Form.token .comma)))
    (fun round items => ?_) ((Grown.refl twin).nothing id)).mono fun _ _ after items => ?_)
  · refine .bind (agree_matches nofun (fun _ _ comma => ?_) fun _ => ?_)
    · refine .bind (agree_isAt (fun _ => ?_) fun _ => ?_)
      · exact agree_pure ⟨rfl, (items.mul comma.token.optional).mono nofun fun _ => id⟩
      · refine (runs_sliceItem agrees).bind fun _ _ item => ?_
        have more := comma.token.mul item
        have items := items.append more fun _ _ mem mem' => Form.kstar_append mem (Form.kstar_of mem')
        refine (agree_checkItemEnd _).mono ?_
        rintro found _ last ⟨rfl, ended⟩
        have all : Grown twin false
            (fun made => made ∈ (Form.token .comma * Form.node .sliceItem)∗ ∧ found = true) last := by
          refine (items.append ended ?_).mono nofun fun _ => id
          rintro made _ mem ⟨found, rfl⟩
          exact ⟨(List.append_nil made).symm ▸ mem, found⟩
        cases found with
        | true => exact ⟨rfl, all.mono id fun _ => And.left, ((more.more ended).any fun _ => rfl).shorter⟩
        | false => exact ⟨rfl, all.mono id fun _ is => absurd is.2 Bool.false_ne_true⟩
    · exact agree_pure ⟨rfl, items.mono id fun _ => Form.mul_optional_of⟩
  · refine .bind (agree_expect nofun fun _ _ close => agree_pure ⟨rfl, ?_⟩)
    exact (items.mul (close.expected (Form.token_mem rbracket))).mono nofun fun _ => id

/-- Where there is a colon, the first item may begin with nothing. -/
theorem agree_sliceStart (agrees : Agrees pair nested) (twin : Twin pair) :
    Agree (sliceStart nested) (sliceStart nested) twin fun answer answer' after => answer = answer' ∧
      Grown twin false (fun made => made ∈ Form.expression ∨
        made ∈ Form.node .emptyExpression ∧ after.next? = some .colon) after := by
  refine .bind (agree_isAt (fun next => ?_) fun _ => ?_)
  · refine agree_emptyNode ⟨rfl, trivial, trivial⟩ fun _ grown here => ⟨rfl, grown.mono id ?_⟩
    exact fun _ is => .inr ⟨is ▸ Form.node_mem _ _, (next?_congr here).trans next⟩
  · exact (agrees.requireTest twin).mono fun _ _ _ ⟨same, grown⟩ =>
      ⟨same, grown.mono id fun _ operand => .inl operand.expression⟩

theorem runs_sliceStop (agrees : Agrees pair nested) : Runs pair (sliceStop nested) (· ∈ Form.bound) := by
  intro twin
  have check {passed : Bool} {middle : Twin pair} (grown : Grown twin passed (· ∈ Form.bound) middle) :
      Agree (do
        if !(← isAtAny [rbracket, .colon, .comma]) then missing "expected ':' or ']'") (do
        if !(← isAtAny [rbracket, .colon, .comma]) then missing "expected ':' or ']'") middle
        fun answer answer' after => answer = answer' ∧ Grown twin false (· ∈ Form.bound) after := by
    refine .bind (agree_isAtAny (fun _ _ _ => ?_) fun _ => ?_)
    · exact agree_pure ⟨rfl, grown.mono nofun fun _ => id⟩
    · exact agree_missing fun after missed _ =>
        ⟨rfl, (grown.append missed fun _ _ _ => False.elim).mono nofun fun _ => id⟩
  refine .bind (agree_isAt (fun _ => ?_) fun _ => ?_)
  · refine .bind (agree_emptyNode ⟨rfl, trivial, trivial⟩ fun _ grown _ => check (grown.mono id ?_))
    exact fun _ is => Form.optional_of (.inr (is ▸ Form.node_mem _ _))
  · exact agrees.optionalTest.bind fun _ _ grown => check (grown.mono id fun _ => Form.bound_of_expression)

theorem runs_sliceStep (agrees : Agrees pair nested) : Runs pair (sliceStep nested)
    (· ∈ Form.optional (Form.token .colon * Form.optional Form.expression)) := by
  intro twin
  refine .bind (agree_matches nofun (fun _ _ colon => ?_) fun _ => ?_)
  · exact agrees.optionalTest.bind fun _ _ grown =>
      agree_pure ⟨rfl, (colon.token.mul grown).optional.mono nofun fun _ => id⟩
  · exact agree_pure ⟨rfl, (Grown.refl twin).omitted⟩

/-- The end of the first item, and the rest of the slice. -/
theorem agree_sliceRest (agrees : Agrees pair nested) {passed : Bool}
    (opened : Open start marker marker' passed (· ∈ NodeKind.form .sliceItem) twin) :
    Agree (sliceRest nested marker) (sliceRest nested marker') twin
      fun answer answer' after =>
        answer = answer' ∧ Grown start false (· ∈ Form.items * Form.token rbracket) after := by
  refine .bind ((agree_itemEnd opened).mono ?_)
  rintro _ _ middle ⟨-, item⟩
  refine .bind ((agree_checkItemEnd middle).mono ?_)
  rintro found _ _ ⟨rfl, ended⟩
  have item := item.append ended fun _ _ mem is => show _ ∈ Form.node .sliceItem by
    rw [is.2, List.append_nil]
    exact mem
  refine (runs_sliceTail agrees _).mono fun _ _ _ ⟨same, tail⟩ => ⟨same, (item.mul tail).mono nofun ?_⟩
  intro made mem
  rw [← mul_assoc, ← mul_assoc] at mem
  exact mem

theorem runs_slice (agrees : Agrees pair nested) :
    Runs pair (slice nested) (· ∈ Form.items * Form.token rbracket) := by
  intro twin
  refine .bind (agree_mark fun item item' _ opened _ => ?_)
  refine .bind ((agree_sliceStart agrees _).mono ?_)
  rintro _ _ middle ⟨-, first⟩
  refine .bind (agree_isAt (fun colon => ?_) fun noColon => ?_)
  · have opened := opened.first (first.mono id fun _ is => show _ ∈ Form.bound from
      Form.optional_of (is.imp id And.left))
    refine .bind (agree_advance colon (by decide) fun _ _ colon _ => ?_)
    have opened := opened.mul colon.token
    refine .bind (agree_isAt (fun close => ?_) fun _ => ?_)
    · refine .bind (agree_emptyNode ⟨rfl, trivial, trivial⟩ fun _ empty here => ?_)
      have empty := empty.mono id fun _ is => show _ ∈ Form.bound from
        Form.optional_of (.inr (is ▸ Form.node_mem _ _))
      refine .bind (agree_done (opened.mul empty)
        (fun _ mem => ⟨.inr (Form.mul_optional_of mem), trivial, trivial⟩) fun _ item here' => ?_)
      have close := (next?_congr (here'.trans here)).trans close
      refine agree_advance close (by decide) fun body _ bracket _ => ⟨rfl, ?_⟩
      have item : Grown _ _ (· ∈ Form.items) _ := item.node fun made _ =>
        Form.mul_optional_of (Form.separated_of_first (Form.node_mem _ made))
      exact (item.mul bracket.token).mono nofun fun _ => id
    · refine (runs_sliceStop agrees).bind fun _ _ stop => ?_
      refine (runs_sliceStep agrees).bind fun _ _ step => ?_
      exact agree_sliceRest agrees (((opened.mul stop).mul step).mono id fun _ => .inr)
  · refine agree_sliceRest agrees ((opened.first first).mono id fun _ is => .inl ?_)
    exact is.resolve_right fun empty => noColon empty.2

/-- Looking for a slice, nothing is seen beyond the end of the statement. -/
theorem hasSliceColon_append {ahead : List Piece} (ends : ∃ piece ∈ ahead, piece.1 = .statementBreak)
    (tail : List Piece) (depth lambdas : Nat) :
    hasSliceColon (ahead ++ tail) depth lambdas = hasSliceColon ahead depth lambdas := by
  induction ahead generalizing depth lambdas with
  | nil => simp at ends
  | cons piece ahead ih =>
      rw [List.cons_append, hasSliceColon, hasSliceColon]
      by_cases is : piece.1 = .statementBreak
      · rw [is, passColon]
      · have ends : ∃ piece ∈ ahead, piece.1 = .statementBreak := by simpa [is] using ends
        cases passColon depth lambdas piece.1 with
        | error answer => rfl
        | ok state => exact ih ends state.1 state.2

/-- What is answered is seen among the tokens ahead. -/
theorem agree_atSlice {post : Bool → Bool → Twin pair → Prop}
    (holds : ∀ answer, hasSliceColon twin.ahead 0 0 = answer → post answer answer twin) :
    Agree (look atSlice) (look atSlice) twin post := by
  intro bounded
  have seen {tail : List Piece} (whole : (∀ piece ∈ twin.ahead, piece.1 ≠ .statementBreak) → tail = []) :
      hasSliceColon (twin.ahead ++ tail) 0 0 = hasSliceColon twin.ahead 0 0 := by
    by_cases ends : ∃ piece ∈ twin.ahead, piece.1 = .statementBreak
    · exact hasSliceColon_append ends tail 0 0
    · rw [whole fun piece mem is => ends ⟨piece, mem, is⟩, List.append_nil]
  have whole : (∀ piece ∈ twin.ahead, piece.1 ≠ .statementBreak) →
      pair.leftTail = [] ∧ pair.rightTail = [] := fun unbroken =>
    bounded.resolve_right fun ⟨piece, mem, is⟩ => unbroken piece mem is
  have left : atSlice twin.left.parser.builder = hasSliceColon twin.ahead 0 0 := by
    rw [atSlice, sliceAhead_eq, List.drop_zero, twin.leftRest, seen fun unbroken => (whole unbroken).1]
  have right : atSlice twin.right.parser.builder = hasSliceColon twin.ahead 0 0 := by
    rw [atSlice, sliceAhead_eq, List.drop_zero, twin.rightRest, seen fun unbroken => (whole unbroken).2]
  exact abreast_look (right.trans left.symm) ⟨bounded, rfl, holds _ left.symm⟩

/-- The rule answers what the brackets make, which is one of two kinds. -/
theorem agree_subscript (agrees : Agrees pair nested) (twin : Twin pair) :
    Agree (subscript nested) (subscript nested) twin fun kind kind' after => kind = kind' ∧
      (kind = .sliceExpression ∧
          Grown twin false (fun made => made ∈ Form.items * Form.token rbracket ∧ EndsBrackets kind made) after ∨
        kind = .subscriptionExpression ∧
          Grown twin false (fun made => made ∈ Form.expression * Form.token rbracket ∧ EndsBrackets kind made)
            after) := by
  refine .bind (agree_atSlice fun answer seen => ?_)
  cases answer with
  | true =>
      refine (runs_slice agrees).bind fun _ _ grown => agree_pure ⟨rfl, .inl ⟨rfl, grown.spent.bound.mono id ?_⟩⟩
      rintro _ ⟨bound, ⟨inside, items, _, ⟨body, rfl⟩, rfl⟩, ahead⟩
      refine ⟨Language.append_mem_mul items (Form.token_mem _ body), ?_⟩
      rw [ahead, leavesAll_append, List.append_assoc] at seen
      exact endsBrackets_of_items ((allBound_append _ _).1 bound).1 items seen
  | false =>
      refine ((yields_tuple agrees false).require _).bind fun _ _ value => ?_
      refine .bind (agree_expect nofun fun _ _ close => agree_pure ⟨rfl, .inr ⟨rfl, ?_⟩⟩)
      have grown := value.expression.mul (close.expected (Form.token_mem rbracket))
      refine grown.bound.mono nofun ?_
      rintro _ ⟨bound, inside, value, _, ⟨body, rfl⟩, rfl⟩
      refine ⟨Language.append_mem_mul value (Form.token_mem _ body), ?_⟩
      exact endsBrackets_of_expression ((allBound_append _ _).1 bound).1 value body

/-! ## Chains -/

/-- An expression that is no target may stand before any link. -/
theorem operand_primary {target : Bool} {made : List Shape} {shape : Shape} (only : made = [shape])
    (level : shape.level = primaryLevel) (is : shape.isExpression = true) (other : shape.isTarget = false) :
    Primary target true made :=
  ⟨⟨shape, only, level.ge, is⟩, fun _ => base_le_head target ⟨shape, only, is, other⟩⟩

theorem wellMade_name {made : List Shape} (target : Bool) (mem : made ∈ Form.name) :
    (Shape.node (nameKind target) none made).WellMade := by
  cases target <;> exact ⟨mem, trivial, trivial⟩

theorem level_name (target : Bool) (made : List Shape) :
    (Shape.node (nameKind target) none made).level = primaryLevel := by
  cases target <;> rfl

theorem isExpression_name (target : Bool) (made : List Shape) :
    (Shape.node (nameKind target) none made).isExpression = true := by
  cases target <;> rfl

theorem primary_name (target : Bool) (body : List Char) :
    Primary target true [.node (nameKind target) none [.token (.identifier, body)]] := by
  refine ⟨⟨_, rfl, (level_name _ _).ge, isExpression_name _ _⟩, fun _ => ?_⟩
  cases target with
  | false => exact ⟨_, rfl, rfl, rfl⟩
  | true => exact .inr ⟨_, Form.token_mem .identifier body, rfl⟩

theorem yields_primary (agrees : Agrees pair nested) (target : Bool) :
    Yields pair (primary nested target) (Primary target) := by
  intro twin
  have token {kind : Kind} (next : twin.next? = some kind) (goesOn : kind ≠ .statementBreak)
      (node : NodeKind) (binds : ∀ body, (Shape.node node none [.token (kind, body)]).WellMade)
      (primary : ∀ body, Primary target true [.node node none [.token (kind, body)]]) :
      Agree (do tokenNode node; pure true) (do tokenNode node; pure true) twin
        fun found found' after => found = found' ∧ Grown twin found (Primary target found) after := by
    refine .bind (agree_tokenNode next goesOn binds fun after grown => agree_pure ⟨rfl, grown.mono id ?_⟩)
    rintro _ ⟨body, rfl⟩
    exact primary body
  refine .bind (agree_current? ?_)
  split <;> rename_i next
  · refine token next nofun _ (fun body => wellMade_name target ?_) (primary_name target)
    exact Language.append_mem_mul (Form.optional_nil _) (Form.token_mem _ body)
  · exact token next nofun _ (fun body => ⟨Form.token_mem _ body, trivial, trivial⟩)
      fun _ => operand_primary rfl rfl rfl rfl
  · exact token next nofun _ (fun body => ⟨Form.token_mem _ body, trivial, trivial⟩)
      fun _ => operand_primary rfl rfl rfl rfl
  · exact token next nofun _ (fun body => ⟨Form.oneOf_of_token (Form.token_mem _ body) (by simp),
      trivial, trivial⟩) fun _ => operand_primary rfl rfl rfl rfl
  · exact token next nofun _ (fun body => ⟨Form.oneOf_of_token (Form.token_mem _ body) (by simp),
      trivial, trivial⟩) fun _ => operand_primary rfl rfl rfl rfl
  · exact (agrees.at (.display _ target) next).mono fun _ _ _ ⟨same, grown⟩ =>
      ⟨same, grown.mono id fun _ ⟨operand, base⟩ => ⟨operand, fun found => base_le_head target (base found)⟩⟩
  · exact agree_pure ⟨rfl, (Grown.refl twin).mono id fun _ none => ⟨none, nofun⟩⟩

/-- Does another link follow that does not show an assumption to be wrong? -/
def Goes (assigned : Assigned) : Option Kind → Prop
  | some .dot => assigned ≠ .first
  | some (.opening .parenthesis) => True
  | some (.opening .bracket) => assigned = .nothing
  | _ => False

theorem not_goes {assigned : Assigned} {next? : Option Kind}
    (others : ∀ kind ∈ [Kind.dot, lpar, lbracket], next? ≠ some kind) : ¬Goes assigned next? := by
  unfold Goes
  split <;> simp_all

/-- A primary expression to which another link is added if one follows. -/
def Linkable (assigned : Assigned) (next? : Option Kind) (made : List Shape) : Prop :=
  Operand primaryLevel true made ∧ (Goes assigned next? → made ∈ head (assigned = .first))

/-- The chain that is open in each text has a primary expression in its frame. -/
structure Linked (start : Twin pair) (assigned : Assigned) (chain chain' : Chain) (twin : Twin pair) :
    Prop where
  going : chain.retry? = none ∧ chain'.retry? = none
  opened : Open start chain.marker chain'.marker true (Linkable assigned twin.next?) twin

/-- A chain has been read up to its end, or was taken back because it assumed too much. -/
def Unlinked (start : Twin pair) (assigned : Assigned) (chain chain' : Chain) (twin : Twin pair) :
    Prop :=
  chain.retry? = chain'.retry? ∧
    match chain.retry? with
    | none => Grown start true (Operand primaryLevel true) twin
    | some weaker => Grown start false (· = []) twin ∧ weaker.rank < assigned.rank

/-- A link that passed a token is put around the chain. -/
theorem agree_wrapLink {assigned : Assigned} {chain chain' : Chain} {middle : Twin pair}
    {fine : List Shape → Prop} {kind : NodeKind}
    (opened : Open start chain.marker chain'.marker true fine middle)
    (shorter : middle.ahead.length < twin.ahead.length)
    (binds : ∀ made, fine made → (Shape.node kind none made).WellMade)
    (level : ∀ made, (Shape.node kind none made).level = primaryLevel)
    (is : ∀ made, (Shape.node kind none made).isExpression = true)
    (other : Goes assigned middle.next? → ∀ made, (Shape.node kind none made).isTarget = false) :
    Agree (do pure (true, ({ marker := ← wrap chain.marker kind } : Chain)))
      (do pure (true, ({ marker := ← wrap chain'.marker kind } : Chain))) middle
      fun answer answer' after => answer.1 = answer'.1 ∧
        if answer.1 then
          Linked start assigned answer.2 answer'.2 after ∧ after.ahead.length < twin.ahead.length
        else Unlinked start assigned answer.2 answer'.2 after := by
  refine .bind (agree_wrap opened binds
    fun wrapper wrapper' after opened here => agree_pure ⟨rfl, ⟨⟨rfl, rfl⟩, ?_⟩, here ▸ shorter⟩)
  refine opened.mono id ?_
  rintro _ ⟨made, rfl, -⟩
  rw [next?_congr here]
  exact ⟨⟨_, rfl, (level made).ge, is made⟩, fun goes => base_le_head _ ⟨_, rfl, is made, other goes made⟩⟩

theorem agree_link (agrees : Agrees pair nested) {assigned : Assigned} {chain chain' : Chain}
    (linked : Linked start assigned chain chain' twin) :
    Agree (link nested assigned chain) (link nested assigned chain') twin
      fun answer answer' after => answer.1 = answer'.1 ∧
        if answer.1 then
          Linked start assigned answer.2 answer'.2 after ∧ after.ahead.length < twin.ahead.length
        else Unlinked start assigned answer.2 answer'.2 after := by
  refine .bind (agree_current? ?_)
  split <;> rename_i next
  · split
    · rename_i first
      refine .bind (agree_rollback linked.opened fun after grown _ => agree_pure ⟨rfl, rfl, grown, ?_⟩)
      exact first ▸ Nat.lt_succ_self 1
    · rename_i notFirst
      refine .bind (agree_advance next nofun fun _ _ dot _ => ?_)
      refine .bind (agree_expect nofun fun _ after name => ?_)
      have name := dot.token.mul (name.expected (Form.token_mem .identifier))
      have opened : Open start chain.marker chain'.marker true (· ∈ Form.name) after := by
        refine linked.opened.append name fun _ _ linkable name => Form.name_of_dot ?_
        have base := linkable.2 (next ▸ notFirst)
        rw [decide_eq_false notFirst] at base
        rw [mul_assoc]
        exact Language.append_mem_mul base name
      refine .bind (agree_isAtAny (fun _ _ _ => ?_) fun others => ?_)
      · refine agree_wrapLink opened name.shorter (fun _ => wellMade_name _) (level_name _)
          (isExpression_name _) fun _ _ => ?_
        rw [Bool.not_true, Bool.and_false]
        rfl
      · refine agree_wrapLink opened name.shorter (fun _ => wellMade_name _) (level_name _)
          (isExpression_name _) fun goes => ?_
        exact absurd goes (not_goes others)
  · refine .bind ((agrees .arguments twin next).mono ?_)
    rintro found _ after ⟨rfl, there, arguments⟩
    cases there rfl
    have opened : Open start chain.marker chain'.marker true (· ∈ NodeKind.form .callExpression) after := by
      refine linked.opened.append arguments fun _ _ linkable => Language.append_mem_mul ?_
      exact head_le_callee _ (linkable.2 (next ▸ trivial))
    exact agree_wrapLink opened arguments.shorter (fun _ mem => ⟨mem, trivial, trivial⟩) (fun _ => rfl)
      (fun _ => rfl) fun _ _ => rfl
  · split
    · rename_i nothing
      refine .bind (agree_advance next nofun fun body begun bracket _ => ?_)
      refine .bind ((agree_subscript agrees _).mono ?_)
      rintro kind _ after ⟨rfl, which⟩
      have opened {form : Language Shape} (inside : Grown begun false
          (fun made => made ∈ form * Form.token rbracket ∧ EndsBrackets kind made) after) :
          Open start chain.marker chain'.marker true
            (fun made => made ∈ Form.base * Form.bracketed .bracket form ∧ FitsBrackets kind made) after := by
        refine linked.opened.append (bracket.trans inside) ?_
        rintro _ _ base ⟨_, made, rfl, rfl, mem, ends⟩
        have base := base.2 (next ▸ nothing)
        rw [nothing] at base
        obtain ⟨shape, rfl, is, other⟩ : _ ∈ Form.base := base
        refine ⟨Language.append_mem_mul ⟨shape, rfl, is, other⟩ ?_, ends.fits (isNode_of_isExpression is)⟩
        rw [Form.bracketed, mul_assoc]
        exact Language.append_mem_mul (Form.token_mem _ body) mem
      rcases which with ⟨rfl, inside⟩ | ⟨rfl, inside⟩
      all_goals
        exact agree_wrapLink (opened inside) (bracket.trans inside).shorter
          (fun _ ⟨mem, fits⟩ => ⟨mem, trivial, fits⟩) (fun _ => rfl) (fun _ => rfl) fun _ _ => rfl
    · rename_i something
      refine .bind (agree_rollback linked.opened fun after grown _ => agree_pure ⟨rfl, rfl, grown, ?_⟩)
      cases assigned with
      | nothing => exact absurd rfl something
      | first | last => simp [Assigned.rank]
  · refine .bind (agree_drop linked.opened fun after grown _ => agree_pure ⟨rfl, ?_⟩)
    refine ⟨linked.going.1.trans linked.going.2.symm, ?_⟩
    rw [linked.going.1]
    exact grown.mono id fun _ => And.left

theorem agree_chain (agrees : Agrees pair nested) (assigned : Assigned) (twin : Twin pair) :
    Agree (chain nested assigned) (chain nested assigned) twin fun ended ended' after =>
      ended = ended' ∧ match ended with
        | .missing => Grown twin false (· = []) after
        | .found => Grown twin true (Operand primaryLevel true) after
        | .retry weaker => Grown twin false (· = []) after ∧ weaker.rank < assigned.rank := by
  refine .bind (agree_mark fun marker marker' _ opened _ => ?_)
  refine (yields_primary agrees _).bind fun found middle grown => ?_
  have opened := opened.first grown
  cases found with
  | false =>
      refine .bind (agree_drop opened fun after grown _ => agree_pure ⟨rfl, grown.mono id fun _ => And.left⟩)
  | true =>
      have linked : Linked twin assigned { marker } { marker := marker' } middle :=
        ⟨⟨rfl, rfl⟩, opened.mono id fun _ primary => ⟨primary.1, fun _ => primary.2 rfl⟩⟩
      refine .bind ((agree_loop (Linked twin assigned) (fun _ _ _ => agree_link agrees) linked).mono ?_)
      rintro chain chain' after ⟨same, ended⟩
      rw [← same]
      split <;> rename_i retry
      · rw [retry] at ended
        exact agree_pure ⟨rfl, ended⟩
      · rw [retry] at ended
        exact agree_pure ⟨rfl, ended⟩

theorem yields_chainFrom (agrees : Agrees pair nested) (assigned : Assigned) :
    Yields pair (nested.chainFrom assigned) (Operand primaryLevel) := by
  intro twin
  rw [Nested.chainFrom]
  refine .bind ((agree_chain agrees assigned twin).mono ?_)
  rintro ended _ middle ⟨rfl, holds⟩
  cases ended with
  | missing => exact agree_pure ⟨rfl, holds⟩
  | found => exact agree_pure ⟨rfl, holds⟩
  | retry weaker =>
      obtain ⟨grown, lower⟩ := holds
      refine (yields_chainFrom agrees weaker middle).mono ?_
      rintro found _ after ⟨rfl, grown'⟩
      refine ⟨rfl, (grown.trans grown').mono id ?_⟩
      rintro _ ⟨_, made, rfl, rfl, operand⟩
      exact operand
termination_by assigned.rank

theorem yields_member (agrees : Agrees pair nested) (target : Bool) :
    Yields pair (member nested target) (Operand primaryLevel) :=
  yields_chainFrom agrees _

end Rules

end StarlarkSyntax.Grammar
