import StarlarkSyntax.Proofs.Print.Full
import StarlarkSyntax.Proofs.Progress.Statement
import StarlarkSyntax.Proofs.Twin.Border
import StarlarkSyntax.Proofs.Twin.Expression
/-!
# Simple statements side by side

A simple statement may pass the end of its line, and then stands before the border at worst. Two tokens
of layout need care where a statement begins: at a dedent, and at one that is inconsistent, the tokens
ahead may be no whole line, so what the rule of expressions does there is said directly.
-/

set_option autoImplicit false

namespace StarlarkSyntax.Grammar

open Twin Shape

variable {pair : Pair} {α : Type} {form : Language Shape} {standing : Standing} {spare : Nat}
  {start twin : Twin pair} {marker marker' : Marker} {kind : Kind}

/-! ## The end of a statement -/

theorem abreast_scope {post : Scope → Scope → Twin pair → Prop}
    (holds : post twin.place.scopes.current twin.place.scopes.current twin) :
    Abreast scope scope twin post := by
  intro _ _ ran
  cases ran
  refine ⟨_, twin, rfl, rfl, ?_⟩
  have same : twin.right.parser.scopes.current = twin.place.scopes.current :=
    congrArg (fun place => place.scopes.current) twin.together
  rw [same]
  exact holds

theorem abreast_setAfterSemicolon {value : Bool} {post : Unit → Unit → Twin pair → Prop}
    (holds : post () () (twin.placed (twin.place.noted value))) :
    Abreast (setAfterSemicolon value) (setAfterSemicolon value) twin post :=
  abreast_place (fun stage same => by rw [← same]; rfl) holds

/-- One more token has been passed since. -/
theorem gains_pass {body : List Char} {left : List Layout.Piece} {after : Twin pair}
    (guarded : Guarded .free spare twin) (ahead : twin.ahead = (kind, body) :: left)
    (since : Since twin [.token (kind, body)] after) (here : after.ahead = left)
    (place : after.place = twin.place) (owes : kind = .dedent → 0 < spare) :
    Gains twin (Form.token kind) .free (indentsAfter spare kind) after := by
  refine ⟨⟨_, since, fun settled _ => ⟨⟨trivial, trivial⟩, Form.token_mem kind body, allShut_token _, ?_⟩⟩,
    congrArg Place.settled place, guarded.pass ahead here place owes⟩
  rw [place]
  exact settled

/-- A token has been passed since that goes on with a line. -/
theorem gains_word {body : List Char} {left : List Layout.Piece} {after : Twin pair}
    (guarded : Guarded .free spare twin) (ahead : twin.ahead = (kind, body) :: left)
    (since : Since twin [.token (kind, body)] after) (place : after.place = twin.place)
    (inside : Lined.begins kind = false) (goesOn : kind ≠ .statementBreak) :
    Gains twin (Form.token kind) .inRow spare after ∧ after.ahead.length < twin.ahead.length := by
  have grown : Grown twin true (· ∈ Form.token kind) after :=
    Grown.token ⟨_, since, intact_token goesOn body⟩
  have next : twin.next? = some kind := by rw [next?, ahead]; rfl
  exact ⟨grown.gains (Form.token_le_lettered rfl) place ((guarded.inRow next inside).grown grown place), grown.shorter⟩

/-- What is left behind at the end of a statement. -/
theorem abreast_endOfStatement (guarded : Guarded .free 0 twin) (bounded : twin.Bounded) :
    Abreast endOfStatement endOfStatement twin fun _ _ after =>
      ∃ standing, Gains twin Form.ending standing 0 after := by
  have nothing : Gains twin Form.ending .free 0 twin :=
    (Gains.refl guarded).mono fun _ none => (show _ = [] from none) ▸ Form.ending_nil
  refine .bind (abreast_matches (bounded.clear.tells _) (fun body left after ahead since here place => ?_)
    fun _ => ?_)
  · have gains := gains_pass guarded ahead since here place nofun
    exact abreast_setAfterSemicolon ⟨_, (gains.mono fun _ => Form.ending_of_break).moved rfl id gains.guarded.calmed⟩
  refine .bind (abreast_isAt (bounded.clear.tells _) ?_)
  cases is : twin.next? == some Kind.semicolon with
  | true =>
      have next := beq_iff_eq.1 is
      refine .bind (abreast_scope ?_)
      cases twin.place.scopes.current.inSuite with
      | true => exact abreast_pure ⟨_, nothing⟩
      | false =>
          obtain ⟨body, left, ahead⟩ := ahead_of_next? next
          refine .bind (abreast_advance ahead fun middle since here place => ?_)
          have passed := (gains_word guarded ahead since place rfl nofun).1
          have bounded : (middle.placed (middle.place.noted true)).Bounded :=
            passed.guarded.bounded rfl
          refine .bind (abreast_setAfterSemicolon ?_)
          refine .bind (abreast_matches (bounded.clear.tells _)
            (fun body left after ahead since' here place' => ?_) fun goesOn => ?_)
          · have line : Gains middle (Form.token .statementBreak) .free 0 (after.placed middle.place) :=
              gains_pass (passed.guarded.free rfl) ahead (since'.of_placed.move _) here rfl nofun
            have both := (passed.trans line).mono fun _ => Form.ending_of_both
            refine abreast_setAfterSemicolon ⟨.free, both.moved ?_ ?_ ?_⟩
            · rw [place']
              rfl
            · rw [place']
              exact id
            · rcases passed.guarded with whole | border
              · exact .inl whole
              · rw [place', place_placed, Place.noted_of_calm (border.calm (.inl rfl))]
                exact line.guarded
          · exact abreast_pure ⟨_, (passed.mono fun _ => Form.ending_of_semicolon).moved rfl id
              (passed.guarded.noted rfl true goesOn)⟩
  | false =>
      refine .bind (abreast_atEnd bounded.clear ?_)
      cases twin.ahead.isEmpty with
      | true => exact abreast_pure ⟨_, nothing⟩
      | false => exact abreast_report guarded fun _ faulty _ _ => ⟨_, faulty.mono fun _ => False.elim⟩

/-- The end of a statement, and the node of the statement. -/
theorem abreast_finish (node : NodeKind) (frames : Frames start marker marker' form .free 0 twin)
    (bounded : twin.Bounded)
    (wellMade : ∀ made ∈ form * Form.ending, (Shape.node node none made).WellMade)
    (is : node.isSimple = true) :
    Abreast (do endOfStatement; done marker node) (do endOfStatement; done marker' node) twin
      fun _ _ after => ∃ standing, Gains start Form.simple standing 0 after := by
  refine .bind ((abreast_endOfStatement frames.guarded bounded).mono ?_)
  rintro _ _ middle ⟨standing, gains⟩
  refine abreast_close (frames.gain gains) wellMade (fun _ _ => isBlock_of_ne ?_) fun _ gains _ _ =>
    ⟨standing, gains.mono (Form.simple_of is)⟩
  rintro rfl
  cases is

/-! ## Statements of words -/

theorem abreast_wordStatement {node : NodeKind} (guarded : Guarded .free 0 twin)
    (next : twin.next? = some kind) (inside : Lined.begins kind = false) (goesOn : kind ≠ .statementBreak)
    (wellMade : ∀ made ∈ Form.token kind * Form.ending, (Shape.node node none made).WellMade)
    (is : node.isSimple = true) :
    Abreast (wordStatement node) (wordStatement node) twin fun _ _ after =>
      ∃ standing, Gains twin Form.simple standing 0 after := by
  refine .bind (abreast_open (guarded.inRow next inside) fun statement statement' _ frames here _ => ?_)
  replace next := (next?_congr here).trans next
  refine abreast_row frames.guarded (Form.token_le_lettered rfl) (agree_advance next goesOn fun _ _ grown _ =>
    ⟨rfl, grown.token.mono nofun fun _ => id⟩) fun _ _ word _ => ?_
  exact abreast_finish _ ((frames.first word).free rfl) (word.guarded.bounded rfl) wellMade is

theorem abreast_returnStatement (guarded : Guarded .free 0 twin)
    (next : twin.next? = some (.reserved .returnWord)) :
    Abreast returnStatement returnStatement twin fun _ _ after =>
      ∃ standing, Gains twin Form.simple standing 0 after := by
  refine .bind (abreast_open (guarded.inRow next rfl) fun statement statement' _ frames here _ => ?_)
  replace next := (next?_congr here).trans next
  refine abreast_row frames.guarded (Form.token_le_lettered rfl) (agree_advance next nofun fun _ _ grown _ =>
    ⟨rfl, grown.token.mono nofun fun _ => id⟩) fun _ middle word _ => ?_
  have frames := frames.first word
  have finish {after : Twin pair} (value : Gains middle (Form.optional Form.expression) .inRow 0 after) :
      Abreast (do endOfStatement; done statement .returnStatement)
        (do endOfStatement; done statement' .returnStatement) after
        fun _ _ after => ∃ standing, Gains twin Form.simple standing 0 after :=
    abreast_finish _ ((frames.gain value).free rfl) (value.guarded.bounded rfl)
      (fun _ mem => ⟨mem, trivial, trivial⟩) rfl
  have clear := (frames.guarded.bounded rfl).clear
  refine .bind (abreast_atEnd clear (.bind (abreast_isAtAny clear ?_)))
  cases middle.ahead.isEmpty || middle.next?.any _ with
  | true => exact finish ((Gains.refl frames.guarded).mono fun _ => .inl)
  | false =>
      refine abreast_row frames.guarded expression_le_flat
        ((yields_expression.require _ _).mono fun _ _ _ ⟨same, grown⟩ => ⟨same, grown.expression⟩)
        fun _ _ value _ => ?_
      exact finish (value.mono fun _ => Form.optional_of)

/-! ## Loading -/

theorem runs_loadString : Runs pair loadString (· ∈ Form.string) := by
  intro twin
  refine .bind (agree_isAt (fun next => ?_) fun _ => ?_)
  · refine agree_tokenNode next nofun (fun body => ⟨?_, trivial, trivial⟩) fun _ grown =>
      ⟨rfl, grown.mono nofun ?_⟩
    · exact Form.oneOf_of_token (Form.token_mem .string body) List.mem_cons_self
    · rintro _ ⟨body, rfl⟩
      exact Form.node_mem _ _
  have report {message : String} : Agree (missing message) (missing message) twin
      fun answer answer' after => answer = answer' ∧ Grown twin false (· ∈ Form.string) after :=
    agree_missing fun _ missed _ => ⟨rfl, missed.mono id fun _ => False.elim⟩
  refine .bind (agree_atEnd (fun _ => ?_) fun kind next => ?_)
  · exact .bind (agree_isAtAny (fun _ _ _ => report) fun _ => report)
  · refine .bind (agree_isAtAny (fun _ _ _ => report) fun others => ?_)
    refine agree_advanceError next (fun is => ?_) fun _ grown =>
      ⟨rfl, grown.mono nofun fun _ => False.elim⟩
    exact others .statementBreak (by simp) (is ▸ next)

theorem runs_loadValue :
    Runs pair loadValue (· ∈ Form.node .stringLoadValue + Form.node .namedLoadValue) := by
  intro twin
  have ended {node : NodeKind} {marker marker' : Marker} {passed : Bool} {form : Language Shape}
      {start after : Twin pair} (opened : Open start marker marker' passed (· ∈ form) after)
      (wellMade : ∀ made ∈ form * Form.string, (Shape.node node none made).WellMade) :
      Agree (do loadString; done marker node) (do loadString; done marker' node) after
        fun answer answer' after => answer = answer' ∧ Grown start false (· ∈ Form.node node) after :=
    runs_loadString.bind fun _ _ grown => agree_done (opened.mul grown) wellMade fun _ grown _ =>
      ⟨rfl, (grown.node fun made _ => Form.node_mem node made).mono nofun fun _ => id⟩
  have alone {marker marker' : Marker} {start after : Twin pair}
      (opened : Open start marker marker' false (· = []) after) :
      Agree (do loadString; done marker .stringLoadValue) (do loadString; done marker' .stringLoadValue)
        after fun answer answer' after =>
          answer = answer' ∧ Grown start false (· ∈ Form.node .stringLoadValue) after :=
    ended opened.one fun _ mem => by
      rw [one_mul] at mem
      exact ⟨mem, trivial, trivial⟩
  refine .bind (agree_mark fun value value' _ opened _ => ?_)
  refine .bind (agree_matches nofun (fun _ _ name => ?_) fun _ => ?_)
  · have opened := opened.first name.token
    refine .bind (agree_matches nofun (fun _ _ equals => ?_) fun _ => ?_)
    · have wellMade made (mem : made ∈ Form.token .identifier * Form.token .equals * Form.string) :
          (Shape.node .namedLoadValue none made).WellMade :=
        ⟨mem, trivial, trivial⟩
      exact (ended (opened.mul equals.token) wellMade).mono fun _ _ _ ⟨same, grown⟩ =>
        ⟨same, grown.mono id fun _ => .inr⟩
    · refine .bind (agree_rollback opened fun middle back _ => ?_)
      refine .bind (agree_mark fun value value' _ opened _ => ?_)
      refine (alone opened).mono fun _ _ after ⟨same, grown⟩ => ⟨same, ?_⟩
      exact back.append grown fun _ _ none mem => .inl (none ▸ mem)
  · exact (alone opened).mono fun _ _ _ ⟨same, grown⟩ => ⟨same, grown.mono id fun _ => .inl⟩

theorem runs_loadValues :
    Runs pair loadValues (· ∈ Form.bracketed .parenthesis Form.loaded) := by
  intro twin
  refine .bind (agree_matches nofun (fun _ first bracket => ?_) fun _ => ?_)
  · have close {after : Twin pair} (values : Grown first false (· ∈ Form.loaded) after) :
        Agree (do let _ ← expect rpar "expected ')'") (do let _ ← expect rpar "expected ')'") after
          fun answer answer' after => answer = answer' ∧
            Grown twin false (· ∈ Form.bracketed .parenthesis Form.loaded) after :=
      .bind (agree_expect nofun fun _ _ close => agree_pure ⟨rfl,
        ((bracket.token.mul values).mul (close.expected (Form.token_mem rpar))).mono nofun fun _ => id⟩)
    have none : Grown first false (· ∈ Form.loaded) first :=
      (Grown.refl first).mono id fun _ none => none ▸ Form.listed_nil _ _
    refine .bind (agree_isAt (fun _ => close none) fun _ => ?_)
    refine runs_loadString.bind fun _ _ module => ?_
    refine .bind ((agree_repeatWhile
      (Grown first false (· ∈ Form.separated Form.string .comma
        (Form.node .stringLoadValue + Form.node .namedLoadValue)))
      (Grown first false (· ∈ Form.loaded)) (fun middle values => ?_)
      (module.mono id fun _ => Form.separated_of_first)).mono fun _ _ _ values => close values)
    have stop := values.mono id fun _ => Form.listed_of_separated
    refine .bind (agree_isAt (fun _ => agree_pure ⟨rfl, stop⟩) fun _ => ?_)
    refine .bind (agree_matches nofun (fun _ next comma => ?_) fun _ => ?_)
    · refine .bind (agree_isAt (fun _ => agree_pure ⟨rfl, ?_⟩) fun _ => ?_)
      · exact (values.append comma.token fun _ _ => Form.listed_of_comma).mono nofun fun _ => id
      · refine runs_loadValue.bind fun _ _ value => agree_pure ⟨rfl, ?_⟩
        have more := comma.token.mul value
        exact ⟨(values.append more fun _ _ => Form.separated_append).mono nofun fun _ => id, more.shorter⟩
    · exact .bind (agree_missing fun _ missed _ => agree_pure ⟨rfl,
        values.append missed fun _ _ _ => False.elim⟩)
  · exact agree_missing fun _ missed _ => ⟨rfl, missed.mono id fun _ => False.elim⟩

theorem abreast_loadStatement (guarded : Guarded .free 0 twin)
    (next : twin.next? = some (.reserved .loadWord)) :
    Abreast loadStatement loadStatement twin fun _ _ after =>
      ∃ standing, Gains twin Form.simple standing 0 after := by
  refine .bind (abreast_open (guarded.inRow next rfl) fun statement statement' _ frames here _ => ?_)
  replace next := (next?_congr here).trans next
  refine abreast_row frames.guarded (Form.token_le_lettered rfl) (agree_advance next nofun fun _ _ grown _ =>
    ⟨rfl, grown.token.mono nofun fun _ => id⟩) fun _ middle word _ => ?_
  refine abreast_row word.guarded (Form.loaded_le_row.trans row_le_flat) (runs_loadValues middle)
    fun _ after values _ => ?_
  exact abreast_finish _ (((frames.first word).gain values).free rfl) (values.guarded.bounded rfl)
    (fun _ mem => ⟨mem, trivial, trivial⟩) rfl

/-! ## Expressions and assignments -/

/-- What the rounds of an assignment have made: targets with a sign after each of them. -/
def begun : Language Shape :=
  Form.optional (Form.separated Form.expression .equals Form.expression * Form.token .equals)

theorem runs_assignment : Runs pair assignment
    (· ∈ Form.expression * Form.token .equals * Form.separated Form.expression .equals Form.expression) := by
  intro twin
  refine runs_targetExpression.bind fun _ _ target => ?_
  have target := target.mono id fun _ => Operand.expression
  refine .bind (agree_expect nofun fun found middle equals => ?_)
  cases found with
  | false =>
      exact agree_pure ⟨rfl, (target.append equals fun _ _ _ none =>
        absurd none.1 Bool.false_ne_true).mono nofun fun _ => id⟩
  | true =>
      have first := target.mul (equals.expected (Form.token_mem .equals))
      refine (agree_repeatWhile (Grown middle false (· ∈ begun))
        (Grown middle false (· ∈ Form.separated Form.expression .equals Form.expression)) (fun round more => ?_)
        ((Grown.refl middle).mono id fun _ none => none ▸ Form.optional_nil _)).mono
        fun _ _ _ values => ⟨rfl, (first.mul values).mono nofun fun _ => id⟩
      refine .bind (agree_mark fun value value' _ opened _ => ?_)
      refine yields_expression.bind fun found _ grown => ?_
      have opened := opened.first grown
      cases found with
      | false =>
          refine .bind (agree_drop opened fun _ grown _ => ?_)
          refine .bind (agree_missing fun _ missed _ => agree_pure ⟨rfl, ?_⟩)
          exact more.append (grown.trans missed) fun _ _ _ ⟨_, _, _, _, faulty⟩ => faulty.elim
      | true =>
          refine .bind (agree_isAt (fun _ => ?_) fun _ => ?_)
          · refine .bind (agree_rollback opened fun _ back _ => ?_)
            refine runs_targetExpression.bind fun _ middle target => ?_
            have values := more.append (back.append target fun _ _ none operand =>
              show _ ∈ Form.expression from none ▸ operand.expression) fun _ _ => Form.separated_of_begun
            refine agree_matches nofun (fun _ _ equals => ?_) fun _ => ⟨rfl, values⟩
            refine ⟨rfl, (values.mul equals.token).mono nofun fun _ => Form.optional_of, ?_⟩
            exact (((back.more target).more equals).any fun _ => rfl).shorter
          · refine .bind (agree_drop opened fun _ grown _ => agree_pure ⟨rfl, ?_⟩)
            exact (more.append grown fun _ _ begun operand =>
              Form.separated_of_begun begun operand.expression).mono nofun fun _ => id

/-- A token that is put into an error node has been passed. -/
theorem abreast_passError {piece : Layout.Piece} {left : List Layout.Piece} {message : String}
    (guarded : Guarded .free spare twin) (ahead : twin.ahead = piece :: left)
    (owes : piece.1 = .dedent → 0 < spare) :
    Abreast (advanceError message) (advanceError message) twin fun _ _ after =>
      Gains twin 0 .free (indentsAfter spare piece.1) after ∧ after.place = twin.place :=
  abreast_advanceError ahead fun _ since here place => ⟨⟨⟨_, since, spells_fault message⟩,
    congrArg Place.settled place, guarded.pass ahead here place owes⟩, place⟩

theorem abreast_countStray (count : Nat → Nat) {post : Unit → Unit → Twin pair → Prop}
    (holds : post () () (twin.placed
      { twin.place with strayIndents := count twin.place.strayIndents })) :
    Abreast (modify fun parser => { parser with strayIndents := count parser.strayIndents })
      (modify fun parser => { parser with strayIndents := count parser.strayIndents }) twin post :=
  abreast_place (fun stage same => by rw [← same]; rfl) holds

theorem abreast_unexpectedToken (guarded : Guarded .free 0 twin) (more : twin.next? ≠ none)
    (closed : twin.next? = some .dedent →
      Whole pair ∨ twin.place.blocks + twin.place.strayIndents = 0) :
    Abreast unexpectedToken unexpectedToken twin fun _ _ after => Gains twin 0 .free 0 after := by
  refine .bind (abreast_current? (clear_of_next? more) ?_)
  split <;> rename_i next
  · exact absurd next more
  · obtain ⟨body, left, ahead⟩ := ahead_of_next? next
    exact (abreast_passError guarded ahead nofun).mono fun _ _ _ holds => holds.1
  · obtain ⟨body, left, ahead⟩ := ahead_of_next? next
    refine .bind (abreast_countStray (· + 1) ?_)
    refine abreast_advanceError ahead fun after since here place => ?_
    -- One more dedent is ahead, and one more is needed.
    have passed : Guarded .free 1 (after.placed twin.place) := guarded.pass ahead here rfl nofun
    have count : Guarded .free 0 ((after.placed twin.place).placed
        { twin.place with strayIndents := twin.place.strayIndents + 1 }) := by
      refine passed.placed (Nat.le_of_eq ?_) id id
      simp only [place_placed]
      omega
    refine ⟨⟨_, since.of_placed, spells_fault _⟩, ?_, ?_⟩
    · rw [place]
      rfl
    · rw [← placed_place after, place]
      exact count
  · obtain ⟨body, left, ahead⟩ := ahead_of_next? next
    rename_i kind _ notIndent
    by_cases dedent : kind = .dedent
    · subst dedent
      have guarded := guarded.owing next (closed next)
      exact (abreast_passError guarded ahead fun _ => Nat.one_pos).mono fun _ _ _ holds => holds.1
    · have same : indentsAfter 0 kind = 0 := by
        unfold indentsAfter
        split <;> first | rfl | contradiction
      refine (abreast_passError guarded ahead fun is => absurd is dedent).mono fun _ _ after holds => ?_
      exact same ▸ holds.1

/-- Where an expression is found or not without looking across the border. -/
theorem abreast_expressionStatement_of_bounded (guarded : Guarded .free 0 twin)
    (bounded : twin.Bounded)
    (tame : Whole pair ∨ twin.next? ≠ some .dedent ∧ twin.next? ≠ some .inconsistentDedent)
    (more : twin.next? ≠ none)
    (closed : twin.next? = some .dedent →
      Whole pair ∨ twin.place.blocks + twin.place.strayIndents = 0) :
    Abreast expressionStatement expressionStatement twin fun _ _ after =>
      ∃ standing, Gains twin Form.simple standing 0 after := by
  refine .bind (abreast_open guarded fun statement statement' first frames here place => ?_)
  have again {other : Twin pair} (ahead : other.ahead = twin.ahead) : other.Bounded ∧
      (Whole pair ∨ other.next? ≠ some .dedent ∧ other.next? ≠ some .inconsistentDedent) := by
    unfold Bounded next?
    rw [ahead]
    exact ⟨bounded, tame⟩
  obtain ⟨bounded', tame'⟩ := again here
  refine .bind ((yields_expression first bounded').mono ?_)
  rintro found _ middle ⟨bounded, place', rfl, grown⟩
  have guarded' := frames.guarded.grownFree tame' grown place'
  cases found with
  | false =>
      have gains : Gains first 1 .free 0 middle := Grown.gains grown.one Form.one_le_such place' guarded'
      refine .bind (abreast_return (frames.first gains) (place'.trans place) guarded
        fun after gains ahead place => ?_)
      have same : after.next? = twin.next? := next?_congr ahead
      refine (abreast_unexpectedToken gains.guarded (same ▸ more) ?_).mono
        fun _ _ _ more => ⟨_, (gains.trans more).mono ?_⟩
      · rw [same, place]
        exact closed
      · rw [mul_zero]
        exact fun _ => False.elim
  | true =>
      have gains : Gains first Form.expression .free 0 middle :=
        grown.expression.gains expression_le_flat place' guarded'
      have frames := frames.first gains
      refine .bind (abreast_current? bounded.clear ?_)
      split <;> rename_i next
      · have row := gains.guarded.inRow next rfl
        refine abreast_row row (Form.token_le_lettered rfl) (agree_advance next nofun fun _ _ grown _ =>
          ⟨rfl, grown.token.mono nofun fun _ => id⟩) fun _ after operator _ => ?_
        refine abreast_row operator.guarded expression_le_flat ((yields_expression.require _ after).mono
          fun _ _ _ ⟨same, grown⟩ => ⟨same, grown.expression⟩) fun _ last value _ => ?_
        have frames := (frames.gain (operator.mono fun _ => Form.compound_of_token)).gain value
        exact abreast_finish _ (frames.free rfl) (frames.guarded.bounded rfl)
          (fun _ mem => ⟨mem, trivial, trivial⟩) rfl
      · refine .bind (abreast_return frames (place'.trans place) guarded fun after gains ahead _ => ?_)
        refine .bind (abreast_open gains.guarded fun statement statement' second frames here _ => ?_)
        obtain ⟨bounded, tame⟩ := again (here.trans ahead)
        refine .bind ((runs_assignment second bounded).mono ?_)
        rintro _ _ last ⟨bounded, place, -, grown⟩
        have values :=
          grown.gains (Form.assigned_le_row.trans row_le_flat) place (frames.guarded.grownFree tame grown place)
        refine (abreast_finish .assignmentStatement (frames.first values) bounded
          (fun _ mem => ⟨mem, trivial, trivial⟩) rfl).mono ?_
        rintro _ _ _ ⟨standing, more⟩
        have all := gains.trans more
        rw [one_mul] at all
        exact ⟨standing, all⟩
      · exact abreast_finish _ frames bounded (fun _ mem => ⟨mem, trivial, trivial⟩) rfl

/-! ## Where no expression begins -/

theorem declines_expression : Declines expression 1 Absent := by
  intro lexed stage absent deep
  have test : Declines (test Grammar.nested false) 1 Absent := declines_conditional.nest
  refine Reaches.bind (reaches_mark fun tuple marked inside same => ?_)
  refine test.bind same absent (by rw [inside.later.place]; exact deep) fun after adds _ => ?_
  exact Reaches.bind (reaches_drop (inside.adds adds) fun _ adds _ => reaches_pure ⟨rfl, adds⟩)

/-- Nothing is found in both texts where no expression begins, whatever comes after that. -/
theorem abreast_declines (next : twin.next? = some kind)
    (absent : beginning kind = 0 ∧ kind ≠ .operator .star) (shallow : twin.place.depth < Builder.maxDepth) :
    Abreast expression expression twin fun found found' after => found = false ∧ found' = false ∧
      Since twin [] after ∧ after.place = twin.place := by
  have clear : twin.Clear := clear_of_next? (by rw [next]; nofun)
  have seen {left : List Layout.Piece} (same : nextKind left = twin.next?) : Absent left := by
    intro other is
    rw [same, next] at is
    cases is
    exact absent
  have left : Gives expression twin.left false [] :=
    declines_expression twin.left (seen clear.left) shallow
  have right : Gives expression twin.right false [] :=
    declines_expression twin.right (seen clear.right) (by
      rw [twin.together]
      exact shallow)
  refine abreast_of_reaches left right ?_
  rintro _ _ left right ⟨rfl, adds⟩ ⟨rfl, adds'⟩
  obtain ⟨after, rfl, rfl, -, place⟩ := exists_twin (adds.rest.symm.trans twin.leftRest)
    (adds'.rest.symm.trans twin.rightRest) adds.later.place (adds'.later.place.trans twin.together)
  refine ⟨after, rfl, rfl, rfl, rfl, .of twin.place adds ?_, place⟩
  rw [right_placed]
  exact adds'

/-- Where the limit of nesting is reached, a token that is no bracket is passed alone. -/
theorem abreast_nestAlone {rule : ParseM Bool} (deep : Builder.maxDepth ≤ twin.place.depth)
    {body : List Char} {left : List Layout.Piece}
    (ahead : twin.ahead = (.inconsistentDedent, body) :: left) :
    Abreast (nest rule) (nest rule) twin fun found found' after => found = true ∧ found' = true ∧
      (∃ made, Since twin made after ∧ allClean made = false) ∧ after.ahead = left ∧
        after.place = twin.place := by
  refine .bind (abreast_enter (fun _ => ?_) fun room => absurd deep (Nat.not_le.2 room))
  have next : twin.next? = some .inconsistentDedent := by rw [next?, ahead]; rfl
  refine .bind (abreast_current? (clear_of_next? (by rw [next]; rintro ⟨⟩)) ?_)
  rw [next]
  refine .bind (abreast_mark fun junk junk' first within here place => ?_)
  rw [loop_eq, bind_assoc, bind_assoc]
  have next : first.next? = some .inconsistentDedent := by rw [next?, here, ahead]; rfl
  refine .bind (.bind (abreast_current? (clear_of_next? (by rw [next]; rintro ⟨⟩)) ?_))
  rw [next]
  refine .bind (abreast_advance (here.trans ahead) fun passed since here' place' => ?_)
  refine abreast_pure (.bind (abreast_pure (.bind ?_)))
  refine abreast_fault (within.since since) fun after since here'' place'' => ?_
  exact abreast_pure ⟨rfl, rfl, ⟨_, since, rfl⟩, here''.trans here', place''.trans (place'.trans place)⟩

theorem abreast_passAlone (deep : Builder.maxDepth ≤ twin.place.depth) {body : List Char}
    {left : List Layout.Piece} (ahead : twin.ahead = (.inconsistentDedent, body) :: left)
    (next : nextKind left = some .dedent) :
    Abreast expression expression twin fun found found' after => found = true ∧ found' = true ∧
      (∃ made, Since twin made after ∧ allClean made = false) ∧ after.ahead = left ∧
        after.place = twin.place := by
  refine .bind (abreast_mark fun tuple tuple' first within here place => ?_)
  have test : Abreast (test nested false) (test nested false) first fun found found' after =>
      found = true ∧ found' = true ∧ (∃ made, Since first made after ∧ allClean made = false) ∧
        after.ahead = left ∧ after.place = first.place :=
    abreast_nestAlone (place ▸ deep) (here.trans ahead)
  refine .bind (test.mono ?_)
  rintro _ _ middle ⟨rfl, rfl, ⟨made, since, unclean⟩, here', place'⟩
  have next : middle.next? = some .dedent := by rw [next?, here']; exact next
  refine .bind (abreast_isAt ((clear_of_next? (by rw [next]; rintro ⟨⟩)).tells _) ?_)
  rw [next]
  refine .bind (abreast_drop (within.since since) fun after since here'' place'' => ?_)
  exact abreast_pure ⟨rfl, rfl, ⟨_, since, unclean⟩, here''.trans here',
    place''.trans (place'.trans place)⟩

/-! ## All simple statements -/

theorem abreast_expressionStatement_of_absent (guarded : Guarded .free 0 twin)
    (next : twin.next? = some kind) (absent : beginning kind = 0 ∧ kind ≠ .operator .star)
    (shallow : twin.place.depth < Builder.maxDepth)
    (closed : twin.next? = some .dedent →
      Whole pair ∨ twin.place.blocks + twin.place.strayIndents = 0) :
    Abreast expressionStatement expressionStatement twin fun _ _ after =>
      ∃ standing, Gains twin Form.simple standing 0 after := by
  refine .bind (abreast_open guarded fun statement statement' first frames here place => ?_)
  have next' : first.next? = some kind := (next?_congr here).trans next
  refine .bind ((abreast_declines next' absent (place ▸ shallow)).mono ?_)
  rintro _ _ middle ⟨rfl, rfl, since, place'⟩
  have gains : Gains first 1 .free 0 middle := ⟨⟨[], since, place' ▸ spells_nil _ _⟩,
    congrArg Place.settled place', frames.guarded.same since.ahead.symm place'⟩
  refine .bind (abreast_return (frames.first gains) (place'.trans place) guarded
    fun after gains ahead place => ?_)
  have again : after.next? = twin.next? := next?_congr ahead
  refine (abreast_unexpectedToken gains.guarded (by rw [again, next]; rintro ⟨⟩) ?_).mono
    fun _ _ _ more => ⟨_, (gains.trans more).mono ?_⟩
  · rw [again, place]
    exact closed
  · rw [mul_zero]
    exact fun _ => False.elim

/-- A dedent that is inconsistent is read as an expression where the limit of nesting is reached. -/
theorem abreast_expressionStatement_of_deep (border : Border .free 0 twin)
    (next : twin.next? = some .inconsistentDedent) (deep : Builder.maxDepth ≤ twin.place.depth) :
    Abreast expressionStatement expressionStatement twin fun _ _ after =>
      ∃ standing, Gains twin Form.simple standing 0 after := by
  have guarded : Guarded .free 0 twin := .inr border
  have bounded := guarded.bounded_of_next? next (by decide)
  obtain ⟨body, left, ahead⟩ := ahead_of_next? next
  have dedent : nextKind left = some .dedent := by
    obtain ⟨owed, lined, -⟩ := border.lined
    rw [ahead, List.map_cons] at lined
    rw [nextKind, ← List.head?_map]
    exact lined.dedent_of_inconsistent
  refine .bind (abreast_open guarded fun statement statement' first frames here place => ?_)
  refine .bind ((abreast_passAlone (place ▸ deep) (here.trans ahead) dedent).mono ?_)
  rintro _ _ middle ⟨rfl, rfl, ⟨made, since, unclean⟩, here', place'⟩
  have gains : Gains first Form.expression .free 0 middle := ⟨⟨made, since, spells_of_unclean unclean⟩,
    congrArg Place.settled place', frames.guarded.pass (here.trans ahead) here' place' (by rintro ⟨⟩)⟩
  have next : middle.next? = some .dedent := by rw [next?, here']; exact dedent
  have bounded : middle.Bounded := by
    unfold Bounded at bounded ⊢
    rw [ahead] at bounded
    rw [here']
    simpa using bounded
  refine .bind (abreast_current? bounded.clear ?_)
  rw [next]
  exact abreast_finish _ (frames.first gains) bounded (fun _ mem => ⟨mem, trivial, trivial⟩) rfl

theorem abreast_expressionStatement (guarded : Guarded .free 0 twin) (more : twin.next? ≠ none)
    (closed : twin.next? = some .dedent →
      Whole pair ∨ twin.place.blocks + twin.place.strayIndents = 0) :
    Abreast expressionStatement expressionStatement twin fun _ _ after =>
      ∃ standing, Gains twin Form.simple standing 0 after := by
  have general (whole : Whole pair) :=
    abreast_expressionStatement_of_bounded guarded (.inl whole) (.inl whole) more closed
  rcases guarded with whole | border
  · exact general whole
  have guarded : Guarded .free 0 twin := .inr border
  cases next : twin.next? with
  | none => exact absurd next more
  | some kind =>
      by_cases dedent : kind = .dedent
      · subst dedent
        rcases closed next with whole | none
        · exact general whole
        · have depth := border.depth
          exact abreast_expressionStatement_of_absent guarded next (by decide) (by
            show twin.place.depth < 128
            omega) closed
      by_cases inconsistent : kind = .inconsistentDedent
      · subst inconsistent
        by_cases shallow : twin.place.depth < Builder.maxDepth
        · exact abreast_expressionStatement_of_absent guarded next (by decide) shallow closed
        · exact abreast_expressionStatement_of_deep border next (Nat.not_lt.1 shallow)
      · refine abreast_expressionStatement_of_bounded guarded
          (guarded.bounded_of_next? next dedent) (.inr ?_) more closed
        rw [next]
        exact ⟨fun is => dedent (Option.some.inj is), fun is => inconsistent (Option.some.inj is)⟩

/-- A simple statement, where a dedent comes only if it closes nothing. There is none where the text ends. -/
theorem abreast_simpleStatement (guarded : Guarded .free 0 twin) (clear : twin.Clear)
    (closed : twin.next? = some .dedent →
      Whole pair ∨ twin.place.blocks + twin.place.strayIndents = 0)
    (le : Form.simple ≤ form) (nothing : twin.next? = none → 1 ≤ form) :
    Abreast simpleStatement simpleStatement twin fun _ _ after =>
      ∃ standing, Gains twin form standing 0 after := by
  have simple {rule : ParseM Unit}
      (abreast : Abreast rule rule twin fun _ _ after => ∃ standing, Gains twin Form.simple standing 0 after) :
      Abreast rule rule twin fun _ _ after => ∃ standing, Gains twin form standing 0 after :=
    abreast.mono fun _ _ _ => Exists.imp fun _ gains => gains.mono le
  refine .bind (abreast_current? clear ?_)
  split <;> rename_i next
  · exact abreast_pure ⟨_, (Gains.refl guarded).mono (nothing next)⟩
  · exact simple (abreast_wordStatement guarded next rfl nofun (fun _ mem => ⟨mem, trivial, trivial⟩) rfl)
  · exact simple (abreast_wordStatement guarded next rfl nofun (fun _ mem => ⟨mem, trivial, trivial⟩) rfl)
  · exact simple (abreast_wordStatement guarded next rfl nofun (fun _ mem => ⟨mem, trivial, trivial⟩) rfl)
  · exact simple (abreast_returnStatement guarded next)
  · exact simple (abreast_loadStatement guarded next)
  · exact simple (abreast_expressionStatement guarded (next ▸ Option.some_ne_none _) closed)

end StarlarkSyntax.Grammar
