import StarlarkSyntax.Proofs.Twin.Argument
/-!
# Full expressions side by side

Displays, full expressions, and with them the productions that are nested: whatever the limit of nesting
is, the rules do the same in two texts whose tokens are the same up to the end of the statement
(`agrees_nested`).
-/

set_option autoImplicit false

namespace StarlarkSyntax.Grammar

open Twin Shape

variable {pair : Pair} {nested : Nested} {twin start : Twin pair} {marker marker' : Marker}
  {fine : List Shape → Prop}

/-! ## Displays -/

theorem wellMade_display {kind : NodeKind} {made : List Shape} (is : kind.isDisplay = true)
    (mem : made ∈ kind.form) : (Shape.node kind none made).WellMade := by
  cases kind <;> first | exact ⟨mem, trivial, trivial⟩ | cases is

/-- Something in brackets is no operation and no target. -/
theorem primary_display {kind : NodeKind} {delimiter : Delimiter} {form : Language Shape} {made : List Shape}
    (is : kind.isDisplay = true) (mem : made ∈ Form.bracketed delimiter form) :
    Primary false true [.node kind none made] := by
  obtain ⟨_, ⟨_, ⟨body, rfl⟩, inside, -, rfl⟩, last, -, rfl⟩ := mem
  refine operand_primary rfl ?_ ?_ ?_
  all_goals cases kind <;> first | rfl | cases is

/-- What has been put in brackets becomes a display. -/
theorem agree_doneDisplay {kind : NodeKind} {delimiter : Delimiter} {form : Language Shape}
    (opened : Open start marker marker' true (· ∈ Form.bracketed delimiter form) twin)
    (is : kind.isDisplay = true) (le : Form.bracketed delimiter form ≤ kind.form) :
    Agree (done marker kind) (done marker' kind) twin fun answer answer' after =>
      answer = answer' ∧ Grown start true (Primary false true) after := by
  refine agree_done opened (fun _ mem => wellMade_display is (le mem)) fun _ grown _ => ⟨rfl, ?_⟩
  exact grown.node fun _ => primary_display is

/-- A bracket that closes a display is asked for. -/
theorem agree_close {delimiter : Delimiter} {message : String} {kind : NodeKind} {form : Language Shape}
    (opened : Open start marker marker' true (· ∈ Form.token (.opening delimiter) * form) twin)
    (is : kind.isDisplay = true) (le : Form.bracketed delimiter form ≤ kind.form) :
    Agree (do
        let _ ← expect (.closing delimiter) message
        done marker kind)
      (do
        let _ ← expect (.closing delimiter) message
        done marker' kind) twin fun answer answer' after =>
          answer = answer' ∧ Grown start true (Primary false true) after :=
  .bind (agree_expect nofun fun _ _ close =>
    agree_doneDisplay (opened.mul (close.expected (Form.token_mem (.closing delimiter)))) is le)

/-- A frame with a message in it is closed, whatever else stands in it. -/
theorem agree_doneFaulty {kind : NodeKind} {passed : Bool}
    (opened : Open start marker marker' passed (fun _ => False) twin)
    (passes : passed = true) :
    Agree (done marker kind) (done marker' kind) twin fun answer answer' after =>
      answer = answer' ∧ Grown start true fine after := by
  subst passes
  refine agree_done opened (fun _ => False.elim) fun _ grown _ => ⟨rfl, grown.mono id ?_⟩
  rintro _ ⟨_, -, ⟨⟩⟩

/-- A comprehension in brackets, from its first clause on. -/
theorem agree_comprehension (agrees : Agrees pair nested) {delimiter : Delimiter} {kind : NodeKind}
    {begun : Twin pair} {passed : Bool} {form : Language Shape}
    (opened : Open start marker marker' true (· ∈ Form.token (.opening delimiter)) begun)
    (head : Grown begun passed (· ∈ form) twin) (next : twin.next? = some (.reserved .forWord))
    (is : kind.isDisplay = true) (le : Form.bracketed delimiter (form * Form.clauses) ≤ kind.form) :
    Agree (comprehension nested marker (some (.closing delimiter)) kind)
      (comprehension nested marker' (some (.closing delimiter)) kind) twin
      fun answer answer' after => answer = answer' ∧ Grown start true (Primary false true) after := by
  refine .bind ((agree_clauses agrees _ next).mono fun _ _ _ clauses => ?_)
  have opened := opened.mul (head.mul clauses)
  refine .bind (agree_matches nofun (fun _ _ close => ?_) fun _ => ?_)
  · exact agree_doneDisplay (opened.mul close.token) is le
  · exact .bind (agree_missing fun _ missed _ => agree_doneFaulty (opened.spoil missed) rfl)

/-- The elements of a list or a set after the first, and the bracket. -/
theorem agree_elements (agrees : Agrees pair nested) (target : Bool) {delimiter : Delimiter}
    {kind : NodeKind} {begun : Twin pair} {passed : Bool}
    (opened : Open start marker marker' true (· ∈ Form.token (.opening delimiter)) begun)
    (first : Grown begun passed (· ∈ Form.expression) twin) (is : kind.isDisplay = true)
    (le : Form.bracketed delimiter (Form.listed Form.expression Form.expression) ≤ kind.form) :
    Agree (elements nested target marker (.closing delimiter) kind)
      (elements nested target marker' (.closing delimiter) kind) twin
      fun answer answer' after => answer = answer' ∧ Grown start true (Primary false true) after := by
  refine .bind ((agree_repeatWhile
    (Grown begun false (· ∈ Form.separated Form.expression .comma Form.expression))
    (Grown begun false (· ∈ Form.listed Form.expression Form.expression)) (fun round items => ?_)
    (first.mono nofun fun _ => Form.separated_of_first)).mono fun _ _ _ items => ?_)
  · have element {middle : Twin pair} {passed : Bool} (comma : Grown round passed (· ∈ Form.token .comma) middle) :
        Agree (do
            if ← isAt (.closing delimiter) then pure false
            else if ← test nested target then pure true
            else
              missing ("expected an expression, ',' or " ++ ("'" ++ (Kind.closing delimiter).name ++ "'"))
              pure false)
          (do
            if ← isAt (.closing delimiter) then pure false
            else if ← test nested target then pure true
            else
              missing ("expected an expression, ',' or " ++ ("'" ++ (Kind.closing delimiter).name ++ "'"))
              pure false) middle fun found found' after => found = found' ∧
                if found then
                  Grown begun false (· ∈ Form.separated Form.expression .comma Form.expression) after ∧
                    after.ahead.length < round.ahead.length
                else Grown begun false (· ∈ Form.listed Form.expression Form.expression) after := by
      have ended := items.append comma fun _ _ => Form.listed_of_comma
      refine .bind (agree_isAt (fun _ => agree_pure ⟨rfl, ended.mono nofun fun _ => id⟩) fun _ => ?_)
      refine (agrees.test target).bind fun found _ value => ?_
      cases found with
      | true =>
          have more := comma.mul value.expression
          refine agree_pure ⟨rfl, ?_, (more.any fun _ => Bool.or_true _).shorter⟩
          exact (items.append more fun _ _ => Form.separated_append).mono nofun fun _ => id
      | false =>
          refine .bind (agree_missing fun _ missed _ => agree_pure ⟨rfl, ?_⟩)
          exact ((ended.trans value).append missed fun _ _ _ => False.elim).mono nofun fun _ => id
    refine .bind (agree_isAt (fun _ => agree_pure ⟨rfl, items.mono id fun _ => Form.listed_of_separated⟩)
      fun _ => ?_)
    refine .bind (agree_matches nofun (fun _ _ comma => ?_) fun _ => ?_)
    · exact .bind (agree_pure (element comma.token))
    · exact .bind (agree_missing fun _ missed _ => element (missed.mono id fun _ => False.elim))
  · exact agree_close (opened.mul items) is le

theorem agree_listDisplay (agrees : Agrees pair nested) (target : Bool)
    (next : twin.next? = some lbracket) :
    Agree (listDisplay nested target) (listDisplay nested target) twin fun answer answer' after =>
      answer = answer' ∧ Grown twin true (Primary false true) after := by
  refine .bind (agree_mark fun expression expression' _ opened here => ?_)
  replace next := (next?_congr here).trans next
  refine .bind (agree_advance next (by decide) fun _ _ bracket _ => ?_)
  have opened := opened.first bracket.token
  refine .bind (agree_matches (by decide) (fun _ _ close => ?_) fun _ => ?_)
  · exact agree_doneDisplay ((opened.mul (Grown.refl _).omitted).mul close.token) rfl le_rfl
  · refine ((agrees.test target).require _).bind fun _ _ first => ?_
    refine .bind (agree_isAt (fun next => ?_) fun _ => ?_)
    · exact agree_comprehension agrees opened first.expression next rfl le_rfl
    · exact agree_elements agrees target opened first.expression rfl le_rfl

theorem agree_parenthesized (agrees : Agrees pair nested) (target : Bool)
    (next : twin.next? = some lpar) :
    Agree (parenthesized nested target) (parenthesized nested target) twin
      fun answer answer' after => answer = answer' ∧ Grown twin true (Primary false true) after := by
  refine .bind (agree_mark fun expression expression' _ opened here => ?_)
  replace next := (next?_congr here).trans next
  refine .bind (agree_advance next (by decide) fun _ begun bracket _ => ?_)
  have opened := opened.first bracket.token
  refine .bind (agree_matches (by decide) (fun _ _ close => ?_) fun more => ?_)
  · exact agree_doneDisplay ((opened.mul (Grown.refl _).one).mul close.token) rfl fun _ => .inl
  refine (yields_tuple agrees target).bind fun found middle value => ?_
  refine .bind (agree_isAt (fun next => ?_) fun _ => ?_)
  · have head : Grown begun found (· ∈ Form.optional Form.expression) middle := by
      cases found with
      | true => exact value.expression.optional
      | false => exact value.omitted
    exact agree_comprehension agrees opened head next rfl fun _ => .inl
  · refine .bind (agree_mark fun junk junk' _ inner _ => ?_)
    refine (yields_skipUntil (by simp)).bind fun skips _ skipped => ?_
    have inner := inner.first skipped
    -- Where there is no expression, no parenthesis comes either.
    have ended {after : Twin pair} {passed : Bool} (rest : Grown middle passed (· = []) after) :
        Agree (do
            let _ ← expect rpar "expected ')'"
            done expression .parenthesizedExpression)
          (do
            let _ ← expect rpar "expected ')'"
            done expression' .parenthesizedExpression) after fun answer answer' after =>
              answer = answer' ∧ Grown twin true (Primary false true) after := by
      refine .bind (agree_expect nofun fun _ last close => ?_)
      have inside : Grown begun false (· ∈ Form.expression * Form.token rpar) last := by
        refine ((value.trans rest).trans close).spent.mono nofun ?_
        rintro _ ⟨⟨_, _, rfl, ⟨made, _, rfl, holds, rfl⟩, -, body, rfl⟩, ahead⟩
        rw [List.append_nil] at ahead ⊢
        cases found with
        | true => exact Language.append_mem_mul (Operand.expression holds) (Form.token_mem rpar body)
        | false =>
            rw [show made = [] from holds] at ahead
            exact absurd (show begun.next? = some rpar by rw [next?, ahead]; rfl) more
      have all := opened.mul inside
      rw [← mul_assoc] at all
      exact agree_doneDisplay all rfl le_rfl
    cases skips with
    | true => exact .bind (agree_fault inner fun _ grown _ => ended (grown.mono id fun _ => False.elim))
    | false => exact .bind (agree_drop inner fun _ grown _ => ended (grown.mono id fun _ => id))

theorem yields_keyValue (agrees : Agrees pair nested) :
    Yields pair (keyValue nested) (Found (Form.node .keyValueExpression)) := by
  intro twin
  refine .bind (agree_mark fun entry entry' _ opened _ => ?_)
  refine (agrees.test false).bind fun found _ key => ?_
  have opened := opened.first key
  cases found with
  | false => exact .bind (agree_drop opened fun _ grown _ => agree_pure ⟨rfl, grown⟩)
  | true =>
      refine .bind (agree_expect nofun fun _ _ colon => ?_)
      have opened := (opened.mono id fun _ => Operand.expression).mul (colon.expected (Form.token_mem .colon))
      refine (agrees.test false).bind fun found _ value => ?_
      cases found with
      | true =>
          refine .bind (agree_done (opened.mul value.expression) (fun _ mem => ⟨mem, trivial, trivial⟩)
            fun _ grown _ => agree_pure ⟨rfl, ?_⟩)
          exact (grown.node fun made _ => Form.node_mem _ made).mono (fun _ => rfl) fun _ => id
      | false =>
          refine .bind (agree_missing fun _ missed _ => ?_)
          refine .bind (agree_drop ((opened.grow value).spoil missed) fun _ grown _ => agree_pure ⟨rfl, ?_⟩)
          exact grown.mono nofun fun _ => False.elim

/-- The entries of a dictionary after the first, and the brace. -/
theorem agree_entries (agrees : Agrees pair nested) {begun : Twin pair} {passed : Bool}
    (opened : Open start marker marker' true (· ∈ Form.token lbrace) begun)
    (first : Grown begun passed (· ∈ Form.entry) twin) :
    Agree (entries nested marker) (entries nested marker') twin fun answer answer' after =>
      answer = answer' ∧ Grown start true (Primary false true) after := by
  refine .bind ((agree_repeatWhile (Grown begun false (· ∈ Form.separated Form.entry .comma Form.entry))
    (Grown begun false (· ∈ Form.listed Form.entry Form.entry)) (fun round items => ?_)
    (first.mono nofun fun _ => Form.separated_of_first)).mono fun _ _ _ items => ?_)
  · refine .bind (agree_isAt (fun _ => agree_pure ⟨rfl, items.mono id fun _ => Form.listed_of_separated⟩)
      fun _ => ?_)
    refine .bind (agree_expect nofun fun passed middle comma => ?_)
    have comma := comma.expected (Form.token_mem .comma)
    have entry {found found' : Bool} {kind : NodeKind} {after : Twin pair}
        (sort : ∀ made ∈ Form.node kind, made ∈ Form.entry)
        (entry : found = found' ∧ Grown middle found (Found (Form.node kind) found) after) :
        found = found' ∧ if found then
            Grown begun false (· ∈ Form.separated Form.entry .comma Form.entry) after ∧
              after.ahead.length < round.ahead.length
          else Grown begun false (· ∈ Form.listed Form.entry Form.entry) after := by
      obtain ⟨rfl, entry⟩ := entry
      cases found with
      | true =>
          have more := comma.mul (entry.mono id sort)
          refine ⟨rfl, ?_, (more.any fun _ => Bool.or_true _).shorter⟩
          exact (items.append more fun _ _ => Form.separated_append).mono nofun fun _ => id
      | false =>
          refine ⟨rfl, ((items.append comma fun _ _ => Form.listed_of_comma).append entry ?_).mono nofun fun _ => id⟩
          intro made made' listed none
          rw [show made' = [] from none, List.append_nil]
          exact listed
    refine .bind (agree_isAt (fun next => ?_) fun _ => ?_)
    · exact (agree_doubleStar agrees next).mono fun _ _ _ => entry fun _ => .inr
    · exact (yields_keyValue agrees middle).mono fun _ _ _ => entry fun _ => .inl
  · exact agree_close (opened.mul items) rfl (Form.bracketed_mono fun _ => .inl)

/-- A dictionary from the value of its first key on, whose key stands in a frame of its own. -/
theorem agree_dictionary (agrees : Agrees pair nested) {begun : Twin pair} {entry entry' : Marker}
    (opened : Open start marker marker' true (· ∈ Form.token lbrace) begun)
    (inner : Open begun entry entry' true (· ∈ Form.expression * Form.token .colon) twin) :
    Agree (dictionary nested marker entry) (dictionary nested marker' entry') twin
      fun answer answer' after => answer = answer' ∧ Grown start true (Primary false true) after := by
  refine (agrees.test false).bind fun found _ value => ?_
  cases found with
  | true =>
      refine .bind (agree_done (inner.mul value.expression) (fun _ mem => ⟨mem, trivial, trivial⟩)
        fun middle grown _ => ?_)
      have first : Grown begun true (· ∈ Form.node .keyValueExpression) middle :=
        grown.node fun made _ => Form.node_mem _ made
      refine .bind (agree_isAt (fun next => ?_) fun _ => ?_)
      · exact agree_comprehension agrees opened (first.mono id fun _ => .inl) next rfl le_rfl
      · exact agree_entries agrees opened (first.mono id fun _ => .inl)
  | false =>
      refine .bind (agree_missing fun _ missed _ => ?_)
      refine .bind (agree_done ((inner.grow value).spoil missed) (fun _ => False.elim) fun _ grown _ => ?_)
      have opened := opened.spoil (grown.node fun _ => False.elim)
      refine .bind (agree_matches nofun (fun _ _ close => ?_) fun _ => ?_)
      · exact agree_doneFaulty (opened.spoilt close) rfl
      · exact agree_doneFaulty opened rfl

theorem agree_braces (agrees : Agrees pair nested) (next : twin.next? = some lbrace) :
    Agree (braces nested) (braces nested) twin fun answer answer' after =>
      answer = answer' ∧ Grown twin true (Primary false true) after := by
  refine .bind (agree_mark fun expression expression' _ opened here => ?_)
  replace next := (next?_congr here).trans next
  refine .bind (agree_advance next (by decide) fun _ _ bracket _ => ?_)
  have opened := opened.first bracket.token
  refine .bind (agree_matches (by decide) (fun _ _ close => ?_) fun _ => ?_)
  · exact agree_doneDisplay ((opened.mul (Grown.refl _).omitted).mul close.token) rfl
      (Form.bracketed_mono fun _ => .inl)
  refine .bind (agree_isAt (fun next => ?_) fun _ => ?_)
  · refine .bind ((agree_doubleStar agrees next).mono ?_)
    rintro found _ _ ⟨rfl, first⟩
    cases found with
    | true => exact agree_entries agrees opened (first.mono id fun _ => .inr)
    | false =>
        exact .bind (agree_missing fun _ missed _ => agree_doneFaulty ((opened.grow first).spoil missed) rfl)
  · refine .bind (agree_mark fun first first' _ inner _ => ?_)
    refine (agrees.test false).bind fun found _ value => ?_
    have inner := inner.first value
    cases found with
    | false =>
        refine .bind (agree_missing fun _ missed _ => ?_)
        refine .bind (agree_drop (inner.spoil missed) fun _ grown _ => ?_)
        exact agree_doneFaulty (opened.spoil grown) rfl
    | true =>
        have inner := inner.mono id fun _ => Operand.expression
        refine .bind (agree_matches (by decide) (fun _ _ colon => ?_) fun _ => ?_)
        · exact agree_dictionary agrees opened (inner.mul colon.token)
        · refine .bind (agree_drop inner fun _ grown _ => ?_)
          refine .bind (agree_isAt (fun next => ?_) fun _ => ?_)
          · exact agree_comprehension agrees opened (grown.mono id fun _ => .inr) next rfl le_rfl
          · exact agree_elements agrees false opened grown rfl (Form.bracketed_mono fun _ => .inr)

theorem agree_display (agrees : Agrees pair nested) {delimiter : Delimiter} (target : Bool)
    (next : twin.next? = some (.opening delimiter)) :
    Agree (display nested delimiter target) (display nested delimiter target) twin
      fun answer answer' after => answer = answer' ∧ Grown twin true (Primary false true) after := by
  cases delimiter with
  | parenthesis => exact agree_parenthesized agrees target next
  | bracket => exact agree_listDisplay agrees target next
  | brace => exact agree_braces agrees next

/-! ## Full expressions -/

/-- What stands after a value makes it a conditional expression. -/
theorem agree_choose {middle : Twin pair} {condition condition' : Marker} {passed : Bool}
    (opened : Open start marker marker' true (Operand 1 true) middle)
    (inner : Open middle condition condition' passed fine twin)
    (binds : ∀ value made, 1 ≤ value.level → value.isExpression = true → fine made →
      (Shape.node .conditionalExpression none (value :: made)).WellMade) :
    Agree (do drop condition; done marker .conditionalExpression; pure true)
      (do drop condition'; done marker' .conditionalExpression; pure true) twin
      fun found found' after => found = found' ∧ Grown start found (Operand 0 found) after := by
  refine .bind (agree_drop inner fun _ grown _ => ?_)
  refine agree_done_true (opened.grow grown) ?_ (fun _ _ => Nat.zero_le _) fun _ _ => rfl
  rintro _ ⟨_, made, rfl, ⟨value, rfl, least, is⟩, holds⟩
  exact binds value made least is holds

/-- A choice between two expressions. -/
theorem wellMade_conditional {value condition alternative : Shape} {ifBody elseBody : List Char}
    (is : value.isExpression = true) (is' : condition.isExpression = true)
    (is'' : alternative.isExpression = true) (least : 1 ≤ value.level) (least' : 1 ≤ condition.level) :
    (Shape.node .conditionalExpression none [value, .token (.reserved .ifWord, ifBody), condition,
      .token (.reserved .elseWord, elseBody), alternative]).WellMade := by
  refine ⟨?_, ⟨value, _, condition, _, alternative, rfl, rfl, rfl, least, least'⟩, trivial⟩
  have value := Language.append_mem_mul (Form.expression_mem is) (Form.token_mem (.reserved .ifWord) ifBody)
  have condition := Language.append_mem_mul value (Form.expression_mem is')
  exact Language.append_mem_mul (Language.append_mem_mul condition (Form.token_mem (.reserved .elseWord) elseBody))
    (Form.expression_mem is'')

theorem yields_choice (agrees : Agrees pair nested) (target : Bool) :
    Yields pair (choice nested target) (Operand 0) := by
  intro twin
  refine .bind (agree_mark fun expression expression' _ opened _ => ?_)
  refine (yields_operation agrees target).bind fun found _ value => ?_
  have opened := opened.first value
  cases found with
  | false => exact .bind (agree_drop opened fun _ grown _ => agree_pure ⟨rfl, grown⟩)
  | true =>
      refine .bind (agree_isAt (fun next => ?_) fun _ => ?_)
      · refine .bind (agree_mark fun condition condition' _ inner here => ?_)
        replace next := (next?_congr here).trans next
        refine .bind (agree_advance next (by decide) fun _ _ word _ => ?_)
        refine (yields_operation agrees target).bind fun found middle chosen => ?_
        have inner := (inner.first word).grow chosen
        cases found with
        | true =>
            refine .bind (agree_isAt (fun _ => ?_) fun _ => ?_)
            · refine .bind (agree_rollback inner fun _ back _ => ?_)
              refine .bind (agree_drop (opened.grow back) fun _ grown _ => agree_pure ⟨rfl, ?_⟩)
              refine grown.mono id ?_
              rintro _ ⟨_, _, rfl, ⟨value, rfl, -, holds⟩, rfl⟩
              exact ⟨value, rfl, Nat.zero_le _, holds⟩
            · refine .bind (agree_matches (by decide) (fun body _ elseWord => ?_) fun _ => ?_)
              · refine ((agrees.test target).require _).bind fun _ _ alternative => ?_
                refine agree_choose opened ((inner.grow elseWord).grow alternative) ?_
                rintro value _ least is ⟨_, _, rfl, ⟨_, _, rfl, ⟨_, _, rfl, rfl, condition, rfl, least', is'⟩,
                  rfl⟩, last, rfl, -, is''⟩
                exact wellMade_conditional is is' is'' least least'
              · exact .bind (agree_missing fun _ missed _ =>
                  agree_choose opened (inner.spoil missed) fun _ _ _ _ => False.elim)
        | false =>
            refine .bind (agree_isAt (fun _ => ?_) fun _ => ?_)
            all_goals
              exact .bind (agree_missing fun _ missed _ =>
                agree_choose opened (inner.spoil missed) fun _ _ _ _ => False.elim)
      · refine .bind (agree_drop opened fun _ grown _ => agree_pure ⟨rfl, grown.mono id ?_⟩)
        exact fun _ => Operand.mono (Nat.zero_le 1)

theorem yields_conditional (agrees : Agrees pair nested) (target : Bool) :
    Yields pair (conditional nested target) (Operand 0) := by
  intro twin
  refine .bind (agree_isAt (fun next => ?_) fun _ => yields_choice agrees target twin)
  exact agree_lambda agrees next fun middle _ => agrees.test false middle

/-! ## Productions -/

/-- The rule for a production where it may be followed, if those one level deeper do the same. -/
theorem agree_production (agrees : Agrees pair nested) {rule : Production} (ready : rule.Ready twin) :
    Agree (production nested rule) (production nested rule) twin fun found found' after =>
      found = found' ∧ (rule = .arguments → found = true) ∧
        Grown twin found (rule.Finds found) after := by
  have other {found found' : Bool} {least : Nat} {after : Twin pair} (no : rule ≠ .arguments)
      (holds : found = found' ∧ Grown twin found (Operand least found) after) :
      found = found' ∧ (rule = .arguments → found = true) ∧
        Grown twin found (Operand least found) after :=
    ⟨holds.1, fun is => absurd is no, holds.2⟩
  cases rule with
  | test target => exact (yields_conditional agrees target twin).mono fun _ _ _ => other (by rintro ⟨⟩)
  | display delimiter target =>
      refine .bind ((agree_display agrees target ready).mono fun _ _ after holds => ?_)
      exact agree_pure ⟨rfl, by rintro ⟨⟩, holds.2⟩
  | arguments =>
      refine .bind ((agree_arguments agrees ready).mono fun _ _ after holds => ?_)
      exact agree_pure ⟨rfl, fun _ => rfl, holds.2⟩
  | negation target =>
      refine (agree_prefixed ready (by decide) (yields_negation agrees target) (.inl ⟨rfl, le_refl 3⟩)
        fun _ _ => ?_).mono fun _ _ _ => other (by rintro ⟨⟩)
      exact le_refl 3
  | signed target =>
      obtain ⟨sign, mem, next⟩ := ready
      have others : sign ≠ .reserved .notWord ∧ sign ≠ .statementBreak := by
        refine ⟨?_, ?_⟩ <;> rintro rfl <;> simp [signs] at mem
      refine (agree_prefixed next others.2 (yields_unary agrees target) (.inr ⟨mem, le_refl 11⟩)
        fun _ _ => ?_).mono fun _ _ _ => other (by rintro ⟨⟩)
      simp [Shape.level, tokenKind?, others.1, Production.least]
  | exponent target => exact (yields_unary agrees target twin).mono fun _ _ _ => other (by rintro ⟨⟩)

/-- Where the limit of nesting is reached, arguments are found as well. -/
theorem found_of_full {rule : Production} (ready : rule.Ready twin) (is : rule = .arguments) :
    twin.next?.any skippable = true := by
  subst is
  rw [show twin.next? = some lpar from ready]
  rfl

theorem agrees_nestedFor (levels : Nat) : Agrees pair (nestedFor levels) := by
  induction levels with
  | zero =>
      intro rule twin ready
      exact agree_nest (found_of_full ready) fun _ _ _ => nofun
  | succ levels agrees =>
      intro rule twin ready
      have deeper : rule.Ready (twin.placed (deeperPlace twin.place)) := by cases rule <;> exact ready
      exact agree_nest (found_of_full ready) (agree_production agrees deeper)

/-- The nested rules do the same in two texts whose tokens are the same up to the end of the statement. -/
theorem agrees_nested : Agrees pair Grammar.nested :=
  agrees_nestedFor _

theorem yields_expression : Yields pair expression (Operand 0) :=
  yields_tuple agrees_nested false

theorem runs_targetExpression : Runs pair targetExpression (Operand 0 true) :=
  (yields_tuple agrees_nested true).require _

/-- The parameters of a function, where their parenthesis comes. -/
theorem agree_parameterList (next : twin.next? = some lpar) :
    Agree (parameterList Grammar.nested) (parameterList Grammar.nested) twin
      fun answer answer' after => answer = answer' ∧ Grown twin true (· ∈ Form.signature) after := by
  refine .bind (agree_mark fun list list' _ opened here => ?_)
  replace next := (next?_congr here).trans next
  refine .bind (agree_advance next (by decide) fun _ _ bracket _ => ?_)
  refine (runs_parameters agrees_nested _).bind fun _ _ items => ?_
  refine .bind (agree_expect (by decide) fun _ _ close => ?_)
  have all := ((opened.first bracket.token).mul items).mul (close.expected (Form.token_mem rpar))
  refine agree_done all (fun _ mem => ⟨.inr mem, trivial, trivial⟩) fun _ grown _ => ⟨rfl, ?_⟩
  exact (grown.node fun made mem => ⟨made, mem, rfl⟩).mono (fun _ => rfl) fun _ => id

end StarlarkSyntax.Grammar
