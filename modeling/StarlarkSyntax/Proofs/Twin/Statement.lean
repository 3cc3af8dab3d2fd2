import StarlarkSyntax.Proofs.Twin.Simple
/-!
# Statements side by side

Suites, compound statements and blocks. A block keeps the dedent that closes it spare: when it is entered
there is one more ahead than is needed, and so there is when it is left.
-/

set_option autoImplicit false

namespace StarlarkSyntax.Grammar

open Twin Shape
open scoped Computability

variable {pair : Pair} {α : Type} {form : Language Shape} {standing : Standing} {spare : Nat}
  {start twin : Twin pair} {marker marker' : Marker} {kind : Kind} {block : ParseM Unit}

/-! ## Suites -/

theorem agree_expectToken {message : String} (goesOn : kind ≠ .statementBreak) :
    Agree (expect kind message) (expect kind message) twin fun found found' after =>
      found = found' ∧ Grown twin false (· ∈ Form.token kind) after :=
  agree_expect goesOn fun _ _ grown =>
    ⟨rfl, (grown.expected (Form.token_mem kind)).mono nofun fun _ => id⟩

/-- A suite may follow if its line goes on. -/
theorem abreast_colon (guarded : Guarded .inRow 0 twin) :
    Abreast colon colon twin fun found found' after => found = found' ∧
      Gains twin (if found then Form.token .colon else 0) (if found then .inRow else .free) 0 after ∧
      after.place = twin.place := by
  have clear := (guarded.bounded rfl).clear
  have faulty {standing : Standing} {after : Twin pair} (gains : Gains twin 0 standing 0 after) :
      Gains twin (Form.token .colon) standing 0 after :=
    gains.mono fun _ => False.elim
  refine .bind (abreast_matches (clear.tells _) (fun body left after ahead since here place => ?_) fun _ => ?_)
  · exact abreast_pure ⟨rfl, (gains_word (guarded.free rfl) ahead since place rfl nofun).1, place⟩
  refine .bind (abreast_isAt (clear.tells _) ?_)
  cases twin.next? == some Kind.statementBreak with
  | true =>
      exact .bind (abreast_report guarded fun _ gains _ place => abreast_pure ⟨rfl, faulty gains, place⟩)
  | false =>
      refine .bind (abreast_open guarded fun junk junk' first frames _ place => ?_)
      refine abreast_row frames.guarded tokens_le_flat ((yields_skipUntil (by simp) _).mono
        fun _ _ _ ⟨same, grown⟩ => ⟨same, grown.mono nofun fun _ => Found.tokens⟩) fun _ _ more place₂ => ?_
      have frames := frames.gain more
      refine abreast_row frames.guarded tokens_le_flat (agree_matches nofun
        (fun _ _ grown => ⟨rfl, grown.token.mono nofun fun _ => Form.tokens_of_token⟩)
        fun _ => ⟨rfl, (Grown.refl _).mono id fun _ none => none ▸ Form.tokens_nil⟩)
        fun found last more place₃ => ?_
      have frames := frames.gain more
      have stays := place₃.trans (place₂.trans place)
      cases found with
      | true =>
          exact .bind (abreast_blame frames fun _ gains _ place' =>
            abreast_pure ⟨rfl, faulty gains, place'.trans stays⟩)
      | false =>
          have clear := (frames.guarded.bounded rfl).clear
          refine .bind (abreast_matches (clear.tells _)
            (fun body left after ahead since here place' => ?_) fun _ => ?_)
          · have line := gains_pass (frames.guarded.free rfl) ahead since here place' nofun
            exact .bind (abreast_blame (frames.gain line) fun _ gains _ place'' =>
              abreast_pure ⟨rfl, gains, place''.trans (place'.trans stays)⟩)
          · exact .bind (abreast_blame (frames.free rfl) fun _ gains _ place' =>
              abreast_pure ⟨rfl, gains, place'.trans stays⟩)

theorem abreast_onScopes (change : Scopes → Scopes) {post : Unit → Unit → Twin pair → Prop}
    (holds : post () () (twin.placed { twin.place with scopes := change twin.place.scopes })) :
    Abreast (onScopes change) (onScopes change) twin post :=
  abreast_place (fun stage same => by rw [← same]; rfl) holds

/-- The scope that was left is entered again. -/
theorem pop_of_settled {place inner : Place} {scope : Scope}
    (stays : inner.settled = ({ place with scopes := place.scopes.push scope } : Place).settled) :
    inner.scopes.pop = place.scopes := by
  have outer : inner.scopes.outer = place.scopes.current :: place.scopes.outer :=
    congrArg (fun place => place.scopes.outer) stays
  rw [Scopes.pop, outer]

/-- A rule that is followed in another scope. -/
theorem abreast_within (change : Scope → Scope) {rule : ParseM Unit}
    (keeps : ∀ scope, (change scope).afterSemicolon = scope.afterSemicolon)
    (guarded : Guarded standing spare twin) (calm : standing.loose = false)
    (inner : ∀ middle : Twin pair, Guarded standing spare middle → middle.ahead = twin.ahead →
      middle.place.depth = twin.place.depth → Abreast rule rule middle fun _ _ after =>
        ∃ standing', Gains middle form standing' spare after) :
    Abreast (within change rule) (within change rule) twin fun _ _ after => Gains twin form .free spare after := by
  refine .bind (abreast_onScopes _ ?_)
  have entered : Guarded standing spare (twin.placed { twin.place with
      scopes := twin.place.scopes.push (change twin.place.scopes.current) }) :=
    guarded.placed (Nat.le_refl _) id (keeps _).trans
  refine .bind ((inner _ entered rfl rfl).mono ?_)
  rintro _ _ after ⟨standing', ⟨made, since, spells⟩, stays, guarded'⟩
  refine abreast_onScopes _ ⟨⟨made, since.of_placed.move _, spells⟩, ?_, ?_⟩
  · have blocks : after.place.blocks = twin.place.blocks := (Place.blocks_eq stays :)
    have depth : after.place.depth = twin.place.depth := (Place.depth_eq stays :)
    rw [place_placed, pop_of_settled stays, Place.settled, Place.settled, blocks, depth]
  · rcases guarded with whole | border
    · exact .inl whole
    · refine guarded'.imp_right fun border' => ⟨border.apart, ?_, border'.depth, fun _ => ?_⟩
      · obtain ⟨owed, lined, enough⟩ := border'.lined
        exact ⟨owed, lined.loosen, enough⟩
      · rw [place_placed, pop_of_settled stays]
        exact border.calm (.inl calm)

theorem abreast_inlineStatement (guarded : Guarded .inRow 0 twin) (le : Form.simple ≤ form)
    (nothing : twin.next? = none → 1 ≤ form) :
    Abreast inlineStatement inlineStatement twin fun _ _ after => Gains twin form .free 0 after :=
  abreast_within Scope.withSuite (fun _ => rfl) guarded rfl fun _ guarded ahead _ =>
    abreast_simpleStatement (guarded.free rfl) (guarded.bounded rfl).clear
      (fun next => .inl (guarded.whole_of_dedent rfl next)) le fun next => nothing ((next?_congr ahead).symm.trans next)

/-- What follows the first statement of a suite on the line of its colon. -/
theorem abreast_inlineRounds (guarded : Guarded .free 0 twin) :
    Abreast (repeatWhile do
      if !(← matches? .semicolon) then pure false
      else if ← matches? .statementBreak then pure false
      else
        inlineStatement
        pure true)
      (repeatWhile do
      if !(← matches? .semicolon) then pure false
      else if ← matches? .statementBreak then pure false
      else
        inlineStatement
        pure true) twin fun _ _ after =>
      Gains twin ((Form.token .semicolon * Form.optional Form.simple)∗
        * Form.optional (Form.token .semicolon * Form.token .statementBreak)) .free 0 after := by
  refine abreast_repeatWhile (Gains twin (Form.token .semicolon * Form.optional Form.simple)∗ .free 0) _
    (fun round gains => ?_) ((Gains.refl guarded).mono one_le_kstar)
  refine .bind (abreast_matches (gains.guarded.tells (by simp))
    (fun body left after ahead since here place => ?_) fun _ => ?_)
  · obtain ⟨semicolon, shorter⟩ := gains_word gains.guarded ahead since place rfl nofun
    refine .bind (abreast_matches ((semicolon.guarded.bounded rfl).clear.tells _)
      (fun body left last ahead since here place => ?_) fun _ => ?_)
    · have line := gains_pass (semicolon.guarded.free rfl) ahead since here place nofun
      exact abreast_pure ⟨rfl, (gains.trans (semicolon.trans line)).mono
        (mul_le_mul_right (fun _ => Form.optional_of) _)⟩
    · refine .bind ((abreast_inlineStatement semicolon.guarded (Form.le_optional _) fun _ => Form.one_le_optional _).mono
        fun _ _ last statement => ?_)
      have more := semicolon.trans statement
      refine abreast_pure ⟨rfl, (gains.trans more).mono kstar_mul_le_kstar, ?_⟩
      exact Nat.lt_of_le_of_lt statement.length_le shorter
  · exact abreast_pure ⟨rfl, gains.mono fun _ => Form.mul_optional_of⟩

theorem abreast_inlineSuite (guarded : Guarded .inRow 0 twin) :
    Abreast inlineSuite inlineSuite twin fun _ _ after =>
      Gains twin (Form.nodeOf .statementList Form.line) .free 0 after := by
  refine .bind (abreast_open guarded fun list list' first frames _ _ => ?_)
  have ended {after : Twin pair} (frames : Frames twin list list' Form.line .free 0 after) :
      Abreast (done list .statementList) (done list' .statementList) after fun _ _ after =>
        Gains twin (Form.nodeOf .statementList Form.line) .free 0 after :=
    abreast_close frames (fun _ mem => ⟨.inr mem, trivial, trivial⟩) (fun _ => isBlock_of_line)
      fun _ gains _ _ => gains
  refine .bind (abreast_atEnd (frames.guarded.bounded rfl).clear ?_)
  cases ahead : first.ahead with
  | nil =>
      refine .bind (abreast_report frames.guarded fun _ faulty _ _ => ended ?_)
      exact (frames.first (faulty.mono fun _ => False.elim)).free rfl
  | cons piece left =>
      have goesOn : first.next? ≠ none := by
        rw [next?, ahead]
        rintro ⟨⟩
      refine .bind ((abreast_inlineStatement frames.guarded le_rfl fun next => absurd next goesOn).mono
        fun _ _ middle statement => ?_)
      refine .bind ((abreast_inlineRounds statement.guarded).mono fun _ _ _ more => ended ?_)
      have frames := (frames.first statement).gain more
      rwa [← mul_assoc] at frames

/-- A dedent comes next, or nothing. -/
def AtClose (twin : Twin pair) : Prop :=
  twin.next? = some .dedent ∨ twin.ahead = []

/-- At a depth, the statements of a block go on up to the dedent that closes it, and leave that spare. -/
def Closes (pair : Pair) (depth : Nat) (block : ParseM Unit) : Prop :=
  ∀ twin : Twin pair, Guarded .free 1 twin → twin.place.depth = depth →
    Abreast block block twin fun _ _ after => Gains twin Form.statements .free 1 after ∧ AtClose after

theorem abreast_blockSuite {depth : Nat} (closes : Closes pair depth block)
    (guarded : Guarded .free 0 twin) (here : twin.place.depth = depth) :
    Abreast (blockSuite block) (blockSuite block) twin fun _ _ after =>
      Gains twin (Form.nodeOf .statementList Form.block * Form.optional (Form.token .dedent)) .free 0 after := by
  refine .bind (abreast_open guarded fun list list' first frames _ place => ?_)
  refine .bind (abreast_matches (frames.guarded.tells (by simp))
    (fun body left after ahead since here' place' => ?_) fun _ => ?_)
  · have entered : Gains first (Form.token .indent) .free 1 after :=
      gains_pass frames.guarded ahead since here' place' nofun
    have deep : after.place.depth = depth := by rw [place', place, here]
    refine .bind ((closes after entered.guarded deep).mono ?_)
    rintro _ _ last ⟨statements, close⟩
    obtain ⟨⟨made, within, spells⟩, stays, guarded⟩ := (frames.first entered).gain statements
    refine .bind (abreast_done within fun middle since same place₁ => ?_)
    have guarded := guarded.same same place₁
    have stays : middle.place.settled = twin.place.settled := (congrArg Place.settled place₁).trans stays
    refine .bind (abreast_matches (guarded.tells (by simp))
      (fun body left after ahead since' here place₂ => ?_) fun other => ?_)
    · rw [← same, ahead, ← place₁, ← place₂] at spells
      refine abreast_pure ⟨⟨_, since.trans since', ?_⟩, (congrArg Place.settled place₂).trans stays,
        guarded.pass ahead here place₂ fun _ => Nat.one_pos⟩
      rw [here]
      exact spells.blockDedent.mono (mul_le_mul_right (Form.le_optional _) _)
    · have nothing : middle.ahead = [] :=
        same.trans (close.resolve_left fun next => other ((next?_congr same).trans next))
      rw [← same, nothing, ← place₁] at spells
      refine abreast_pure ⟨⟨_, since, ?_⟩, stays, guarded.less (Nat.zero_le 1)⟩
      rw [nothing]
      exact spells.block.mono fun _ => Form.mul_optional_of
  · refine .bind (abreast_report frames.guarded fun _ faulty _ _ => ?_)
    refine abreast_close (frames.first faulty) (fun _ => False.elim) (fun _ => False.elim)
      fun _ gains _ _ => gains.mono ?_
    rintro _ ⟨_, ⟨⟩, _⟩

theorem abreast_suite {depth : Nat} (closes : Closes pair depth block)
    (guarded : Guarded .inRow 0 twin) (here : twin.place.depth = depth) :
    Abreast (suite block) (suite block) twin fun _ _ after => Gains twin Form.suite .free 0 after := by
  refine .bind (abreast_matches ((guarded.bounded rfl).clear.tells _)
    (fun body left after ahead since here' place => ?_) fun _ => ?_)
  · have line := gains_pass (guarded.free rfl) ahead since here' place nofun
    refine (abreast_blockSuite closes line.guarded (by rw [place, here])).mono fun _ _ _ list => ?_
    have both := line.trans list
    rw [← mul_assoc] at both
    exact both.mono fun _ => .inl
  · exact (abreast_inlineSuite guarded).mono fun _ _ _ list => list.mono fun _ => .inr

theorem abreast_colonAndSuite {depth : Nat} (closes : Closes pair depth block)
    (guarded : Guarded .inRow 0 twin) (here : twin.place.depth = depth) :
    Abreast (colonAndSuite block) (colonAndSuite block) twin fun _ _ after =>
      Gains twin Form.body .free 0 after := by
  refine .bind ((abreast_colon guarded).mono ?_)
  rintro found _ middle ⟨rfl, colon, place⟩
  cases found with
  | true =>
      exact (abreast_suite closes colon.guarded (by rw [place, here])).mono fun _ _ _ suite => colon.trans suite
  | false =>
      -- The empty list after the message is made of nothing that it should be made of.
      refine .bind (abreast_mark fun list list' first within here place => ?_)
      refine abreast_done within fun after since here' place' => ?_
      exact colon.spoiltBy since (here'.trans here) (place'.trans place)

/-! ## Compound statements -/

/-- The word that a part of a statement begins with has been passed. -/
theorem abreast_word {next next' : Unit → ParseM α} {post : α → α → Twin pair → Prop}
    (guarded : Guarded .free spare twin) (here : twin.next? = some kind)
    (inside : Lined.begins kind = false) (goesOn : kind ≠ .statementBreak)
    (holds : ∀ after, Gains twin (Form.token kind) .inRow spare after → after.place = twin.place →
      after.ahead.length < twin.ahead.length → Abreast (next ()) (next' ()) after post) :
    Abreast (advance >>= next) (advance >>= next') twin post := by
  obtain ⟨body, left, ahead⟩ := ahead_of_next? here
  refine .bind (abreast_advance ahead fun after since _ place => ?_)
  obtain ⟨gains, shorter⟩ := gains_word guarded ahead since place inside goesOn
  exact holds after gains place shorter

theorem abreast_branch {depth : Nat} (closes : Closes pair depth block)
    (guarded : Guarded .free 0 twin) (here : twin.place.depth = depth) {word : Reserved}
    (next : twin.next? = some (.reserved word)) :
    Abreast (branch block) (branch block) twin fun _ _ after =>
      Gains twin (Form.branch word) .free 0 after ∧ after.ahead.length < twin.ahead.length := by
  refine abreast_word guarded next rfl nofun fun first word place shorter => ?_
  refine abreast_row word.guarded expression_le_flat ((agrees_nested.requireTest first).mono
    fun _ _ _ ⟨same, grown⟩ => ⟨same, grown.expression⟩) fun _ middle condition place' => ?_
  have depth : middle.place.depth = depth := by rw [place', place, here]
  refine (abreast_colonAndSuite closes condition.guarded depth).mono fun _ _ after body => ?_
  have more := (word.trans condition).trans body
  exact ⟨more, Nat.lt_of_le_of_lt (condition.trans body).length_le shorter⟩

theorem abreast_ifStatement {depth : Nat} (closes : Closes pair depth block)
    (guarded : Guarded .free 0 twin) (here : twin.place.depth = depth)
    (next : twin.next? = some (.reserved .ifWord)) :
    Abreast (ifStatement block) (ifStatement block) twin fun _ _ after =>
      Gains twin Form.statement .free 0 after := by
  refine .bind (abreast_open guarded fun statement statement' first frames here' place => ?_)
  have next : first.next? = some (.reserved .ifWord) := (next?_congr here').trans next
  have deep {form : Language Shape} {after : Twin pair} (gains : Gains first form .free 0 after) :
      after.place.depth = depth :=
    (Place.depth_eq gains.stays).trans (by rw [place, here])
  refine .bind ((abreast_branch closes frames.guarded (place ▸ here) next).mono
    fun _ _ middle begun => ?_)
  refine .bind ((abreast_repeatWhile
    (Gains first (Form.branch .ifWord * (Form.branch .elifWord)∗) .free 0)
    (Gains first (Form.branch .ifWord * (Form.branch .elifWord)∗) .free 0) (fun round gains => ?_)
    (begun.1.mono (le_mul_of_one_le_right' one_le_kstar))).mono fun _ _ last gains => ?_)
  · refine .bind (abreast_isAt (gains.guarded.tells (by simp)) ?_)
    cases is : round.next? == some (Kind.reserved .elifWord) with
    | false => exact abreast_pure ⟨rfl, gains⟩
    | true =>
        refine .bind ((abreast_branch closes gains.guarded (deep gains) (beq_iff_eq.1 is)).mono
          fun _ _ after branch => ?_)
        have more := gains.trans branch.1
        rw [mul_assoc] at more
        exact abreast_pure ⟨rfl, more.mono (mul_le_mul_right kstar_mul_le_kstar _), branch.2⟩
  · have ended {after : Twin pair}
        (rest : Gains last (Form.optional (Form.token (.reserved .elseWord) * Form.body)) .free 0 after) :
        Abreast (done statement .ifStatement) (done statement' .ifStatement) after
          fun _ _ after => Gains twin Form.statement .free 0 after :=
      abreast_close ((frames.first gains).gain rest) (fun _ mem => ⟨mem, trivial, trivial⟩) (fun _ _ => rfl)
        fun _ gains _ _ => gains.mono (Form.statement_of rfl)
    refine .bind (abreast_matches (gains.guarded.tells (by simp))
      (fun body left after ahead since _ place' => ?_) fun _ => ?_)
    · have word := (gains_word gains.guarded ahead since place' rfl nofun).1
      have here : after.place.depth = depth := by rw [place', deep gains]
      exact .bind ((abreast_colonAndSuite closes word.guarded here).mono fun _ _ _ body =>
        ended ((word.trans body).mono fun _ => Form.optional_of))
    · exact ended ((Gains.refl gains.guarded).mono fun _ => .inl)

theorem abreast_forStatement {depth : Nat} (closes : Closes pair depth block)
    (guarded : Guarded .free 0 twin) (here : twin.place.depth = depth)
    (next : twin.next? = some (.reserved .forWord)) :
    Abreast (forStatement block) (forStatement block) twin fun _ _ after =>
      Gains twin Form.statement .free 0 after := by
  refine .bind (abreast_open guarded fun statement statement' first frames here' place => ?_)
  have next : first.next? = some (.reserved .forWord) := (next?_congr here').trans next
  refine abreast_word frames.guarded next rfl nofun fun middle word _ _ => ?_
  refine abreast_row word.guarded expression_le_flat (runs_targets agrees_nested middle)
    fun _ middle targets _ => ?_
  refine abreast_row targets.guarded (Form.token_le_lettered rfl) (agree_expectToken nofun)
    fun _ middle inWord _ => ?_
  refine abreast_row inWord.guarded expression_le_flat ((yields_expression.require _ middle).mono
    fun _ _ _ ⟨same, grown⟩ => ⟨same, grown.expression⟩) fun _ middle range _ => ?_
  have row := ((word.trans targets).trans inWord).trans range
  have deep : middle.place.depth = depth := (Place.depth_eq row.stays).trans (by rw [place, here])
  refine .bind ((abreast_colonAndSuite closes row.guarded deep).mono fun _ _ _ body => ?_)
  exact abreast_close ((frames.first row).gain body) (fun _ mem => ⟨mem, trivial, trivial⟩) (fun _ _ => rfl)
    fun _ gains _ _ => gains.mono (Form.statement_of rfl)

theorem abreast_functionDeclaration {depth : Nat} (closes : Closes pair depth block)
    (guarded : Guarded .free 0 twin) (here : twin.place.depth = depth)
    (next : twin.next? = some (.reserved .defWord)) :
    Abreast (functionDeclaration block) (functionDeclaration block) twin fun _ _ after =>
      Gains twin Form.statement .free 0 after := by
  refine .bind (abreast_open guarded fun declaration declaration' first frames here' place => ?_)
  have next : first.next? = some (.reserved .defWord) := (next?_congr here').trans next
  refine abreast_word frames.guarded next rfl nofun fun middle word _ _ => ?_
  refine abreast_row word.guarded (Form.token_le_lettered rfl) (agree_expectToken nofun)
    fun _ middle name _ => ?_
  have head := word.trans name
  have body {last : Twin pair} (signature : Gains middle Form.signature .inRow 0 last) :
      Abreast
        (do within Scope.withFunction (colonAndSuite block); done declaration .functionDeclaration)
        (do within Scope.withFunction (colonAndSuite block); done declaration' .functionDeclaration)
        last fun _ _ after => Gains twin Form.statement .free 0 after := by
    have row := head.trans signature
    have deep : last.place.depth = depth := (Place.depth_eq row.stays).trans (by rw [place, here])
    refine .bind ((abreast_within Scope.withFunction (fun _ => rfl) row.guarded rfl fun inner guarded _ same =>
      (abreast_colonAndSuite closes guarded (same.trans deep)).mono fun _ _ _ body => ⟨_, body⟩).mono
        fun _ _ _ body => ?_)
    exact abreast_close ((frames.first row).gain body) (fun _ mem => ⟨mem, trivial, trivial⟩) (fun _ _ => rfl)
      fun _ gains _ _ => gains.mono (Form.statement_of rfl)
  refine .bind (abreast_isAt ((head.guarded.bounded rfl).clear.tells _) ?_)
  cases is : middle.next? == some lpar with
  | true =>
      exact abreast_row head.guarded (Form.nodeOf_le_lettered rfl) ((agree_parameterList (beq_iff_eq.1 is)).mono
        fun _ _ _ list => list.imp_right (·.mono nofun fun _ => id)) fun _ _ signature _ => body signature
  | false =>
      refine abreast_row head.guarded (fun _ => False.elim) (agree_missing fun _ missed _ => ⟨rfl, missed⟩)
        fun _ _ (missed : Gains _ 0 _ _ _) _ => ?_
      refine abreast_row missed.guarded (Form.node_le_lettered rfl)
        (agree_emptyNode ⟨.inl (Form.listed_nil _ _), trivial, trivial⟩ fun _ empty _ =>
          ⟨rfl, empty.mono id fun _ is => show _ ∈ Form.node .parameterList from is ▸ ⟨_, rfl⟩⟩)
        fun _ _ empty _ => ?_
      exact body (missed.spoilt empty)

theorem abreast_compoundStatement {afterSemicolon : Bool} {rule : ParseM Unit}
    (guarded : Guarded .free 0 twin)
    (holds : ∀ middle : Twin pair, Guarded .free 0 middle → middle.ahead = twin.ahead →
      middle.place = twin.place →
      Abreast rule rule middle fun _ _ after => Gains middle Form.statement .free 0 after) :
    Abreast (compoundStatement afterSemicolon rule) (compoundStatement afterSemicolon rule) twin
      fun _ _ after => Gains twin Form.statement .free 0 after := by
  cases afterSemicolon with
  | false => exact holds twin guarded rfl rfl
  | true =>
      refine .bind (abreast_report guarded fun middle faulty here place => ?_)
      exact (holds middle faulty.guarded here place).mono fun _ _ _ more => faulty.spoilt more

/-! ## All statements -/

theorem abreast_strayIndents {post : Nat → Nat → Twin pair → Prop}
    (holds : post twin.place.strayIndents twin.place.strayIndents twin) :
    Abreast strayIndents strayIndents twin post := by
  intro _ _ ran
  cases ran
  have same : twin.right.parser.strayIndents = twin.place.strayIndents :=
    congrArg Place.strayIndents twin.together
  exact ⟨_, twin, rfl, rfl, same ▸ holds⟩

theorem abreast_blocks {post : Nat → Nat → Twin pair → Prop}
    (holds : post twin.place.blocks twin.place.blocks twin) : Abreast blocks blocks twin post := by
  intro _ _ ran
  cases ran
  have same : twin.right.parser.blocks = twin.place.blocks := congrArg Place.blocks twin.together
  exact ⟨_, twin, rfl, rfl, same ▸ holds⟩

/-- A dedent that matches a stray indent has been passed. -/
theorem abreast_passStray (guarded : Guarded .free 0 twin) (next : twin.next? = some .dedent)
    (stray : 0 < twin.place.strayIndents) :
    Abreast
      (do
        modify fun parser => { parser with strayIndents := parser.strayIndents - 1 }
        advance)
      (do
        modify fun parser => { parser with strayIndents := parser.strayIndents - 1 }
        advance) twin fun _ _ after => Gains twin form .free 0 after := by
  obtain ⟨body, left, ahead⟩ := ahead_of_next? next
  refine .bind (abreast_countStray (· - 1) ?_)
  -- One dedent less is needed, so that the next one is spare.
  have counted : Guarded .free 1 (twin.placed
      { twin.place with strayIndents := twin.place.strayIndents - 1 }) :=
    guarded.placed (by dsimp only; omega) id id
  refine abreast_advance ahead fun after since here place => ?_
  have passed := gains_pass counted ahead since here place fun _ => Nat.one_pos
  refine ⟨⟨_, since.of_placed, fun settled => absurd settled (Nat.ne_of_gt stray)⟩, ?_, passed.guarded⟩
  rw [place]
  rfl

theorem abreast_statementHere {depth : Nat} (closes : Closes pair depth block)
    (guarded : Guarded standing 0 twin) (clear : twin.Clear) (here : twin.place.depth = depth) :
    Abreast (statementHere block) (statementHere block) twin fun _ _ after =>
      ∃ standing, Gains twin (Form.optional Form.statement) standing 0 after := by
  refine .bind (abreast_scope (.bind (abreast_setAfterSemicolon ?_)))
  generalize same : twin.placed (twin.place.noted false) = first
  have calmed : Guarded .free 0 first := by
    rw [← same]
    cases standing <;> exact guarded.calmed.free rfl
  have deep : first.place.depth = depth := by rw [← same]; exact here
  have clear : first.Clear := by rw [← same]; exact clear
  have begun {rule : ParseM Unit}
      (abreast : Abreast rule rule first fun _ _ after =>
        ∃ standing, Gains first (Form.optional Form.statement) standing 0 after) :
      Abreast rule rule first fun _ _ after =>
        ∃ standing, Gains twin (Form.optional Form.statement) standing 0 after := by
    refine abreast.mono ?_
    rintro _ _ after ⟨standing, ⟨made, since, spells⟩, stays, guarded⟩
    rw [← same] at since spells stays
    exact ⟨standing, ⟨made, since.of_placed, spells⟩, stays, guarded⟩
  have compound {rule : ParseM Unit}
      (abreast : Abreast rule rule first fun _ _ after => Gains first Form.statement .free 0 after) :
      Abreast rule rule first fun _ _ after =>
        ∃ standing, Gains twin (Form.optional Form.statement) standing 0 after :=
    begun (abreast.mono fun _ _ _ gains => ⟨_, gains.mono fun _ => Form.optional_of⟩)
  have simple (closed : first.next? = some .dedent →
      Whole pair ∨ first.place.blocks + first.place.strayIndents = 0) :
      Abreast simpleStatement simpleStatement first fun _ _ after =>
        ∃ standing, Gains twin (Form.optional Form.statement) standing 0 after :=
    begun (abreast_simpleStatement calmed clear closed
      (fun _ mem => Form.optional_of (Form.statement_of_simple mem)) fun _ _ => .inl)
  have nothing : Gains first (Form.optional Form.statement) .free 0 first :=
    (Gains.refl calmed).mono fun _ => .inl
  refine .bind (abreast_current? clear ?_)
  split <;> rename_i next
  · exact begun (abreast_pure ⟨_, nothing⟩)
  · refine .bind (abreast_strayIndents ?_)
    split
    · rename_i stray
      exact begun ((abreast_passStray calmed next stray).mono fun _ _ _ gains => ⟨_, gains⟩)
    · rename_i none
      refine .bind (abreast_blocks ?_)
      split
      · rename_i outside
        exact simple fun _ => .inr (by omega)
      · exact begun (abreast_pure ⟨_, nothing⟩)
  · exact compound (abreast_compoundStatement calmed fun _ guarded ahead place =>
      abreast_ifStatement closes guarded (by rw [place, deep]) ((next?_congr ahead).trans next))
  · exact compound (abreast_compoundStatement calmed fun _ guarded ahead place =>
      abreast_forStatement closes guarded (by rw [place, deep]) ((next?_congr ahead).trans next))
  · exact compound (abreast_compoundStatement calmed fun _ guarded ahead place =>
      abreast_functionDeclaration closes guarded (by rw [place, deep])
        ((next?_congr ahead).trans next))
  · rename_i kind notDedent _ _ _
    exact simple fun is => absurd (Option.some.inj (next.symm.trans is)) notDedent

/-- In a block there are tokens ahead. -/
theorem clear_of_block (guarded : Guarded standing spare twin)
    (inside : Whole pair ∨ 0 < twin.place.blocks) : twin.Clear := by
  rcases inside with whole | inside
  · exact fun _ => whole
  · exact guarded.clear (by omega)

theorem abreast_statementIn {depth : Nat} (closes : Closes pair depth block)
    (guarded : Guarded standing 0 twin) (inside : Whole pair ∨ 0 < twin.place.blocks)
    (here : twin.place.depth = depth) :
    Abreast (statementIn block) (statementIn block) twin fun _ _ after =>
      ∃ standing, Gains twin Form.statements standing 0 after := by
  have clear {middle : Twin pair} {standing : Standing}
      (gains : Gains twin Form.statements standing 0 middle) : middle.Clear :=
    clear_of_block gains.guarded (by rw [Place.blocks_eq gains.stays]; exact inside)
  refine .bind ((abreast_repeatWhile (fun middle => ∃ standing, Gains twin Form.statements standing 0 middle)
    (fun middle => ∃ standing, Gains twin Form.statements standing 0 middle) ?_
    ⟨_, (Gains.refl guarded).mono one_le_kstar⟩).mono ?_)
  · rintro middle ⟨standing, gains⟩
    refine abreast_matches ((clear gains).tells _)
      (fun body left after ahead since here place => ⟨rfl, ⟨.free, ?_⟩, ?_⟩)
      fun _ => ⟨rfl, standing, gains⟩
    · have next : middle.next? = some .statementBreak := by rw [next?, ahead]; rfl
      have more := gains_pass (gains.guarded.free_of_break next) ahead since here place (by rintro ⟨⟩)
      exact gains.more (more.mono Form.break_le)
    · rw [ahead, here]
      exact Nat.lt_succ_self _
  · rintro _ _ middle ⟨standing, gains⟩
    refine (abreast_statementHere closes gains.guarded (clear gains)
      ((Place.depth_eq gains.stays).trans here)).mono ?_
    exact fun _ _ _ => Exists.imp fun _ more => gains.more (more.mono Form.optional_statement_le)

/-! ## Blocks -/

/-- What is passed over of a block is no more than the block. -/
theorem abreast_skipBlock (guarded : Guarded .free 1 twin) :
    Abreast skipBlock skipBlock twin fun _ _ after => Gains twin 0 .free 1 after ∧ AtClose after := by
  refine .bind (abreast_open guarded fun junk junk' first frames _ _ => ?_)
  have skipped : Abreast (loop skipBlockRound 1) (loop skipBlockRound 1) first
      fun _ _ after => Gains first ⊤ .free 1 after ∧ AtClose after := by
    refine abreast_loop (fun open' open'' middle => open' = open'' ∧ 0 < open' ∧
      Gains first ⊤ .free open' middle) ?_ 1 1 first
      ⟨rfl, Nat.one_pos, (Gains.refl frames.guarded).mono fun _ _ => trivial⟩
    rintro owed _ middle ⟨rfl, pos, gains⟩
    have clear : middle.Clear := gains.guarded.clear (by omega)
    refine .bind (abreast_current? clear ?_)
    cases next : middle.next? with
    | none =>
        have whole : Whole pair := clear (ahead_eq_nil next)
        exact abreast_pure ⟨rfl, gains.guard (.inl whole), .inr (ahead_eq_nil next)⟩
    | some kind =>
        dsimp only
        split
        · rename_i closes
          have single : kind = .dedent ∧ owed = 1 := by
            unfold indentsAfter at closes
            split at closes
            · omega
            · exact ⟨rfl, by omega⟩
            · omega
          obtain ⟨rfl, rfl⟩ := single
          exact abreast_pure ⟨rfl, gains, .inl next⟩
        · rename_i more
          obtain ⟨body, left, ahead⟩ := ahead_of_next? next
          refine .bind (abreast_advance ahead fun after since here place => ?_)
          have passed := gains_pass gains.guarded ahead since here place fun _ => pos
          refine abreast_pure ⟨rfl, ⟨rfl, Nat.pos_of_ne_zero more, (gains.trans passed).mono fun _ _ => trivial⟩, ?_⟩
          rw [ahead, here]
          exact Nat.lt_succ_self _
  refine .bind (skipped.mono ?_)
  rintro _ _ last ⟨gains, close⟩
  refine abreast_blame (frames.gain gains) fun _ gains here _ => ⟨gains, ?_⟩
  exact close.imp (next?_congr here).trans here.trans

theorem abreast_atBlockEnd (clear : twin.Clear) {post : Bool → Bool → Twin pair → Prop}
    (yes : twin.next? = some .dedent → twin.place.strayIndents = 0 → post true true twin)
    (no : (twin.next? = some .dedent → 0 < twin.place.strayIndents) → post false false twin) :
    Abreast atBlockEnd atBlockEnd twin post := by
  refine .bind (abreast_isAt (clear.tells _) (.bind (abreast_strayIndents (abreast_pure ?_))))
  cases is : twin.next? == some Kind.dedent with
  | false => exact no fun next => absurd next (beq_eq_false_iff_ne.1 is)
  | true =>
      rw [Bool.true_and]
      by_cases none : twin.place.strayIndents = 0
      · rw [decide_eq_true none]
        exact yes (beq_iff_eq.1 is) none
      · rw [decide_eq_false none]
        exact no fun _ => Nat.pos_of_ne_zero none

/-- A statement where the block it stands in has not ended passes a token. -/
theorem ends_of_steps {statement : ParseM Unit} {depth : Nat} (steps : Steps depth statement)
    (here : twin.place.depth = depth) (clear : twin.Clear) (next : twin.next? = some kind)
    (goesOn : twin.next? = some .dedent → 0 < twin.place.strayIndents ∨ twin.place.blocks = 0) :
    Ends statement twin.left.parser fun _ after =>
      twin.left.parser.Since twin.place.depth (twin.left.parser.builder.cursor + 1) after := by
  have since := twin.left.since
  have seen : twin.left.parser.builder.current? = twin.next? := (current?_eq _).trans clear.left
  rw [here]
  rw [show twin.left.place.depth = depth from here] at since
  refine (steps _ _ _ since).mono fun _ after ⟨_, passed⟩ => ?_
  exact passed kind (seen.trans next) fun is => goesOn (seen.symm.trans is)

theorem abreast_countBlocks (count : Nat → Nat) {post : Unit → Unit → Twin pair → Prop}
    (holds : post () () (twin.placed { twin.place with blocks := count twin.place.blocks })) :
    Abreast (modify fun parser => { parser with blocks := count parser.blocks })
      (modify fun parser => { parser with blocks := count parser.blocks }) twin post :=
  abreast_place (fun stage same => by rw [← same]; rfl) holds

/-- The place in a block that has been entered. -/
def entered (place : Place) : Place :=
  { place with blocks := place.blocks + 1, depth := place.depth + 1 }

/-- The place after a block has been left. -/
def leftBlock (place : Place) : Place :=
  { place with blocks := place.blocks - 1, depth := place.depth - 1 }

theorem settled_leftBlock {place inner : Place} (stays : inner.settled = (entered place).settled) :
    (leftBlock inner).settled = place.settled := by
  have blocks := congrArg Place.blocks stays
  have depth := congrArg Place.depth stays
  have scopes := congrArg Place.scopes stays
  change inner.blocks = place.blocks + 1 at blocks
  change inner.depth = place.depth + 1 at depth
  simp only [Place.settled, leftBlock, blocks, depth, Nat.add_sub_cancel] at scopes ⊢
  rw [scopes]
  rfl

theorem closes_blockOf {statement : ParseM Unit} {depth : Nat}
    (steps : depth < Builder.maxDepth → Steps (depth + 1) statement)
    (statements : depth < Builder.maxDepth → ∀ (standing : Standing) (twin : Twin pair),
      Guarded standing 0 twin → (Whole pair ∨ 0 < twin.place.blocks) → twin.place.depth = depth + 1 →
      Abreast statement statement twin fun _ _ after => ∃ standing, Gains twin Form.statements standing 0 after) :
    Closes pair depth (blockOf statement) := by
  intro twin guarded here
  refine .bind (abreast_enter (fun _ => ?_) fun room => ?_)
  · exact (abreast_skipBlock guarded).mono fun _ _ _ faulty => faulty.imp_left (·.mono fun _ => False.elim)
  rw [here] at room
  refine .bind (abreast_countBlocks (· + 1) ?_)
  show Abreast _ _ (twin.placed (entered twin.place)) _
  generalize same : twin.placed (entered twin.place) = inner
  have place : inner.place = entered twin.place := by rw [← same]; rfl
  have guarded : Guarded .free 0 inner := by
    rw [← same]
    refine guarded.placed ?_ (congrArg (· + 1)) id
    show twin.place.blocks + 1 + twin.place.strayIndents + 0 ≤ _
    omega
  have deep {middle : Twin pair} {standing : Standing}
      (gains : Gains inner Form.statements standing 0 middle) :
      middle.place.depth = depth + 1 ∧ 0 < middle.place.blocks := by
    have blocks := Place.blocks_eq gains.stays
    have depth := Place.depth_eq gains.stays
    rw [place] at blocks depth
    exact ⟨depth.trans (congrArg (· + 1) here), by rw [blocks]; exact Nat.succ_pos _⟩
  refine .bind ((abreast_repeatWhile (fun middle => ∃ standing, Gains inner Form.statements standing 0 middle)
    (fun after => Gains inner Form.statements .free 0 after ∧ AtClose after) ?_
    ⟨_, (Gains.refl guarded).mono one_le_kstar⟩).mono ?_)
  · rintro middle ⟨standing, gains⟩
    obtain ⟨depth, inside⟩ := deep gains
    have clear := clear_of_block gains.guarded (.inr inside)
    refine .bind (abreast_atEnd clear (.bind (abreast_atBlockEnd clear (fun dedent _ => ?_)
      fun goesOn => ?_)))
    · rw [Bool.or_true]
      exact abreast_pure ⟨rfl, gains.guard (gains.guarded.free_of_dedent dedent), .inl dedent⟩
    · cases next : middle.next? with
      | none =>
          have nothing := ahead_eq_nil next
          have whole : Whole pair := clear nothing
          rw [nothing]
          exact abreast_pure ⟨rfl, gains.guard (.inl whole), .inr nothing⟩
      | some kind =>
          obtain ⟨body, left, ahead⟩ := ahead_of_next? next
          rw [ahead]
          refine .bind (((statements room standing middle gains.guarded (.inr inside) depth).shorter
            (ends_of_steps (steps room) depth clear next fun is => .inl (goesOn is))).mono ?_)
          rintro _ _ last ⟨⟨standing, more⟩, shorter⟩
          exact abreast_pure ⟨rfl, ⟨standing, gains.more more⟩, ahead ▸ shorter⟩
  · rintro _ _ after ⟨gains, close⟩
    refine .bind (abreast_countBlocks (· - 1) (abreast_exit ⟨?_, close⟩))
    have blocks := (deep gains).2
    obtain ⟨made, since, spells⟩ := gains.made
    rw [← same] at since spells
    have since : Since twin made after := since.of_placed
    have stays : (leftBlock after.place).settled = twin.place.settled :=
      settled_leftBlock (by rw [gains.stays, place])
    have guarded : Guarded .free 1 (after.placed (leftBlock after.place)) := by
      refine gains.guarded.placed ?_ (congrArg (· - 1)) id
      show after.place.blocks - 1 + after.place.strayIndents + 1 ≤ _
      omega
    exact ⟨⟨made, since.move _, spells⟩, stays, guarded⟩

/-- The rules of blocks, as deep as there may be any. -/
theorem closes_blockFor (levels : Nat) {depth : Nat} (enough : Builder.maxDepth ≤ levels + depth) :
    Closes pair depth (blockFor levels) := by
  induction levels generalizing depth with
  | zero => exact closes_blockOf (fun room => by omega) fun room => by omega
  | succ levels ih =>
      have closes : Closes pair (depth + 1) (blockFor levels) := ih (by omega)
      have keeps : Keeps (depth + 1) (blockFor levels) := keeps_blockFor levels (by omega)
      exact closes_blockOf (fun _ => steps_statementIn keeps)
        fun _ standing twin guarded inside here => abreast_statementIn closes guarded inside here

end StarlarkSyntax.Grammar
