import StarlarkSyntax.Proofs.Checked.Move
import StarlarkSyntax.Proofs.Progress.Expression
/-!
# Tuples, subscripts and chains with their assertions

Each rule stands here with its assertions, and after it the proof that it does what the rule without
them does, where the nested rules do (`Mirrored`).

A chain is more than that. Where a bracket shows that nothing in the chain is assigned to, the
subscript is read and made a node all the same, and only then is everything taken back to where the
chain began. The rule without assertions takes it back at once. Both come to the same state, because
a subscript takes nothing back of what was there before it (`Parser.Since.taken_back`); and the
subscript is read to its end, because every rule ends.
-/

set_option autoImplicit false

namespace StarlarkSyntax.Checked

open Grammar (look current? isAt isAtAny atEnd advance matches? expect missing Production
  Assigned ChainEnd nameKind atSlice checkItemEnd expectedExpression lpar lbracket rbracket)

/-- The checked rules for the productions, one level deeper. -/
abbrev Nested := Production → CheckedM Bool

/-- The checked rule does what the rule does at a token of the given kind. -/
def MirrorsAt {α : Type} (here : Scopes → Nat → Prop) (depth : Nat) (kind : Kind)
    (checked : CheckedM α) (rule : ParseM α) : Prop :=
  ∀ (base : Parser) (marks : List Mark) (watched : Watched),
    Live here base depth marks watched → watched.parser.builder.current? = some kind →
      Matches checked rule watched (Agrees here base depth marks)

/-- The checked nested rules do what the nested rules do, which end. -/
structure Mirrored (nested : Nested) (plain : Grammar.Nested) (depth : Nat) : Prop where
  follows : Grammar.Follows plain depth
  test : ∀ {here} target, Mirrors here depth (nested (.test target)) (plain (.test target))
  exponent : ∀ {here} target,
    Mirrors here depth (nested (.exponent target)) (plain (.exponent target))
  negation : ∀ {here} target,
    Mirrors here depth (nested (.negation target)) (plain (.negation target))
  signed : ∀ {here} target, Mirrors here depth (nested (.signed target)) (plain (.signed target))
  display : ∀ {here} delimiter target, MirrorsAt here depth (.opening delimiter)
    (nested (.display delimiter target)) (plain (.display delimiter target))
  arguments : ∀ {here}, MirrorsAt here depth lpar (nested .arguments) (plain .arguments)

/-- An assertion about the next token. -/
theorem Matches.assertAt {α β : Type} {kind : Kind} {more : Unit → CheckedM α} {rule : ParseM β}
    {watched : Watched} {after : α → β → Watched → Prop}
    (seen : watched.parser.builder.current? = some kind) (here : Matches (more ()) rule watched after) :
    Matches (Checked.assertAt kind >>= more) rule watched after :=
  .assert (by simp [Builder.isAt, seen]) here

variable {nested : Nested} {plain : Grammar.Nested} {here : Scopes → Nat → Prop} {depth : Nat}

/-! ## Tuples -/

/-- A full expression. -/
def test (nested : Nested) (target : Bool) : CheckedM Bool :=
  nested (.test target)

/-- A full expression that has to be there. -/
def requireTest (nested : Nested) : CheckedM Unit :=
  require expectedExpression (test nested false)

/-- Items separated by commas, which are a tuple only if there is a comma. -/
def tupleOf (item : CheckedM Bool) : CheckedM Bool := do
  let tuple ← mark
  if !(← item) then
    drop tuple
    pure false
  else if !(← isAt .comma) then
    drop tuple
    pure true
  else
    repeatWhile do
      if !(← matches? .comma) then pure false
      else
        let place ← mark
        if ← item then
          drop place
          pure true
        else
          rollback place
          pure false
    done tuple .tupleExpression
    pure true

/-- Full expressions separated by commas. -/
def tuple (nested : Nested) (target : Bool) : CheckedM Bool :=
  tupleOf (test nested target)

theorem mirrors_requireTest (mirrored : Mirrored nested plain depth) :
    Mirrors here depth (requireTest nested) (Grammar.requireTest plain) :=
  mirrors_require _ (mirrored.test false)

/-- The rounds after the first item of a tuple. -/
theorem mirrors_moreItems {item : CheckedM Bool} {item' : ParseM Bool}
    (mirrors : Mirrors here depth item item') :
    Mirrors here depth (repeatWhile do
      if !(← matches? .comma) then pure false
      else
        let place ← mark
        if ← item then
          drop place
          pure true
        else
          rollback place
          pure false) (Grammar.repeatWhile do
      if !(← matches? .comma) then pure false
      else
        let place ← Grammar.mark
        if ← item' then
          Grammar.drop place
          pure true
        else
          Grammar.rollback place
          pure false) := by
  refine mirrors_repeatWhile ((mirrors_matches? .comma).seq fun found => .ite (.pure false) ?_)
  intro base marks watched live
  refine (matches_mark live).bind ?_
  rintro place _ watched ⟨rfl, made, live, -⟩
  refine mirrors.bind live fun found watched live => ?_
  cases found with
  | false => exact (matches_rollback live made).answers _
  | true => exact (matches_drop live made).answers _

theorem mirrors_tupleOf {item : CheckedM Bool} {item' : ParseM Bool}
    (mirrors : Mirrors here depth item item') :
    Mirrors here depth (tupleOf item) (Grammar.tupleOf item') := by
  intro base marks watched live
  refine (matches_mark live).bind ?_
  rintro tuple _ watched ⟨rfl, made, live, -⟩
  refine mirrors.bind live fun found watched live => ?_
  refine .ite (fun _ => (matches_drop live made).answers _) fun _ => ?_
  refine matches_isAt live fun watched _ live => ?_
  refine .ite (fun _ => (matches_drop live made).answers _) fun _ => ?_
  refine (mirrors_moreItems mirrors).bind live fun _ watched live => ?_
  exact (matches_done live made _).answers _

theorem mirrors_tuple (mirrored : Mirrored nested plain depth) (target : Bool) :
    Mirrors here depth (tuple nested target) (Grammar.tuple plain target) :=
  mirrors_tupleOf (mirrored.test target)

/-! ## Subscripts -/

/-- An item of a slice after the first: an expression or a slice. -/
def sliceItem (nested : Nested) : CheckedM Unit := do
  let item ← mark
  let found ← test nested false
  if ← matches? .colon then
    let _ ← test nested false
    if ← matches? .colon then
      let _ ← test nested false
  else if !found then
    missing expectedExpression
  done item .sliceItem

/-- The items of a slice after the first one, and the closing bracket. -/
def sliceTail (nested : Nested) : CheckedM Unit := do
  repeatWhile do
    if !(← matches? .comma) then pure false
    else if ← isAt rbracket then pure false
    else
      sliceItem nested
      checkItemEnd
  let _ ← expect rbracket "expected ']'"

/-- Where the first item of a slice starts, which may be left out. -/
def sliceStart (nested : Nested) : CheckedM Unit := do
  if ← isAt .colon then emptyNode .emptyExpression else requireTest nested

/-- Where the first item of a slice stops, which may be left out before another colon. -/
def sliceStop (nested : Nested) : CheckedM Unit := do
  if ← isAt .colon then emptyNode .emptyExpression
  else
    let _ ← test nested false
  if !(← isAtAny [rbracket, .colon, .comma]) then missing "expected ':' or ']'"

/-- The step of the first item of a slice, if it has one. -/
def sliceStep (nested : Nested) : CheckedM Unit := do
  if ← matches? .colon then
    let _ ← test nested false

/-- The end of the first item of a slice, and everything after it. -/
def sliceRest (nested : Nested) (item : Mark) : CheckedM Unit := do
  done item .sliceItem
  let _ ← checkItemEnd
  sliceTail nested

/-- The first item of a slice from its first colon on, and everything after it. -/
def sliceFromColon (nested : Nested) (item : Mark) : CheckedM Unit := do
  advance
  if ← isAt rbracket then
    emptyNode .emptyExpression
    done item .sliceItem
    advance
  else
    sliceStop nested
    sliceStep nested
    sliceRest nested item

/-- The inside of the brackets of a slice, and the closing one. -/
def slice (nested : Nested) : CheckedM Unit := do
  let item ← mark
  sliceStart nested
  if ← isAt .colon then sliceFromColon nested item else sliceRest nested item

/-- The inside of brackets after an expression, and the closing one; answers what they make. -/
def subscript (nested : Nested) : CheckedM NodeKind := do
  if ← look atSlice then
    slice nested
    pure .sliceExpression
  else
    require expectedExpression (tuple nested false)
    let _ ← expect rbracket "expected ']'"
    pure .subscriptionExpression

theorem mirrors_checkItemEnd : Mirrors here depth (lift checkItemEnd) checkItemEnd := by
  refine mirrors_lift Grammar.keeps_checkItemEnd ?_
  refine (calm_look _).bind fun found => ?_
  split
  · exact calm_pure true
  · exact (calm_onBuilder _).bind fun _ => calm_pure false

theorem mirrors_sliceItem (mirrored : Mirrored nested plain depth) :
    Mirrors here depth (sliceItem nested) (Grammar.sliceItem plain) := by
  intro base marks watched live
  have test : Mirrors here depth _ _ := mirrored.test false
  refine (matches_mark live).bind ?_
  rintro item _ watched ⟨rfl, made, live, -⟩
  refine test.bind live fun found watched live => ?_
  refine (mirrors_matches? .colon).bind live fun colon watched live => ?_
  cases colon with
  | false =>
      cases found with
      | false => exact (mirrors_missing _).bind live fun _ watched live => (matches_done live made _).agrees
      | true => exact (matches_done live made _).agrees
  | true =>
      refine test.bind live fun _ watched live => ?_
      refine (mirrors_matches? .colon).bind live fun colon watched live => ?_
      cases colon with
      | false => exact (matches_done live made _).agrees
      | true => exact test.bind live fun _ watched live => (matches_done live made _).agrees

theorem mirrors_sliceTail (mirrored : Mirrored nested plain depth) :
    Mirrors here depth (sliceTail nested) (Grammar.sliceTail plain) := by
  refine (mirrors_repeatWhile ?_).seq fun _ => (mirrors_expect _ _).seq fun _ => .pure ()
  refine (mirrors_matches? .comma).seq fun found => .ite (.pure false) ?_
  refine (mirrors_look _).seq fun atEnd => .ite (.pure false) ?_
  exact (mirrors_sliceItem mirrored).seq fun _ => mirrors_checkItemEnd

theorem mirrors_sliceStart (mirrored : Mirrored nested plain depth) :
    Mirrors here depth (sliceStart nested) (Grammar.sliceStart plain) :=
  (mirrors_look _).seq fun _ => .ite (mirrors_emptyNode _) (mirrors_requireTest mirrored)

theorem mirrors_sliceStop (mirrored : Mirrored nested plain depth) :
    Mirrors here depth (sliceStop nested) (Grammar.sliceStop plain) := by
  have check : Mirrors here depth (do
      if !(← isAtAny [rbracket, .colon, .comma]) then missing "expected ':' or ']'") (do
      if !(← isAtAny [rbracket, .colon, .comma]) then missing "expected ':' or ']'") :=
    (mirrors_look _).seq fun _ => .ite (mirrors_missing _) (.pure ())
  refine (mirrors_look _).seq fun colon => .ite ?_ ?_
  · exact (mirrors_emptyNode _).seq fun _ => check
  · exact (mirrored.test false).seq fun _ => check

theorem mirrors_sliceStep (mirrored : Mirrored nested plain depth) :
    Mirrors here depth (sliceStep nested) (Grammar.sliceStep plain) :=
  (mirrors_matches? .colon).seq fun _ =>
    .ite ((mirrored.test false).seq fun _ => .pure ()) (.pure ())

section Slices

variable {base : Parser} {marks : List Mark} {watched : Watched}
  {item : Mark}

theorem matches_sliceRest (mirrored : Mirrored nested plain depth)
    (live : Live here base depth (item :: marks) watched) (made : item.marker.Since base 0) :
    Matches (sliceRest nested item) (Grammar.sliceRest plain item.marker) watched
      (Agrees here base depth marks) := by
  refine (matches_done live made _).bind fun _ _ watched live => ?_
  refine mirrors_checkItemEnd.bind live fun _ watched live => ?_
  exact mirrors_sliceTail mirrored base marks watched live

theorem matches_sliceFromColon (mirrored : Mirrored nested plain depth)
    (live : Live here base depth (item :: marks) watched) (made : item.marker.Since base 0) :
    Matches (sliceFromColon nested item) (Grammar.sliceFromColon plain item.marker) watched
      (Agrees here base depth marks) := by
  refine mirrors_advance.bind live fun _ watched live => ?_
  refine matches_isAt live fun watched _ live => .ite (fun _ => ?_) fun _ => ?_
  · refine (mirrors_emptyNode _).bind live fun _ watched live => ?_
    refine (matches_done live made _).bind fun _ _ watched live => ?_
    exact mirrors_advance base marks watched live
  · refine (mirrors_sliceStop mirrored).bind live fun _ watched live => ?_
    refine (mirrors_sliceStep mirrored).bind live fun _ watched live => ?_
    exact matches_sliceRest mirrored live made

end Slices

theorem mirrors_slice (mirrored : Mirrored nested plain depth) :
    Mirrors here depth (slice nested) (Grammar.slice plain) := by
  intro base marks watched live
  refine (matches_mark live).bind ?_
  rintro item _ watched ⟨rfl, made, live, -⟩
  refine (mirrors_sliceStart mirrored).bind live fun _ watched live => ?_
  refine matches_isAt live fun watched _ live => .ite (fun _ => ?_) fun _ => ?_
  · exact matches_sliceFromColon mirrored live made
  · exact matches_sliceRest mirrored live made

theorem mirrors_subscript (mirrored : Mirrored nested plain depth) :
    Mirrors here depth (subscript nested) (Grammar.subscript plain) := by
  refine (mirrors_look _).seq fun _ => .ite ?_ ?_
  · exact (mirrors_slice mirrored).seq fun _ => .pure _
  · refine (mirrors_require _ (mirrors_tuple mirrored false)).seq fun _ => ?_
    exact (mirrors_expect _ _).seq fun _ => .pure _

/-! ## Chains -/

/-- A name, a literal, or something in brackets. -/
def primary (nested : Nested) (target : Bool) : CheckedM Bool := do
  match ← current? with
  | some .identifier =>
    tokenNode (nameKind target)
    pure true
  | some .int =>
    tokenNode .integerLiteralExpression
    pure true
  | some .float =>
    tokenNode .floatLiteralExpression
    pure true
  | some .string | some .bytes =>
    tokenNode .stringLiteralExpression
    pure true
  | some (.opening delimiter) => nested (.display delimiter target)
  | _ => pure false

/-- How far the reading of a chain has come. -/
structure Chain where
  mark : Mark
  retry? : Option Assigned := none
deriving DecidableEq, Inhabited

/-- Reads one more link of a chain, if there is one. -/
def link (nested : Nested) (assigned : Assigned) (chain : Chain) : CheckedM (Bool × Chain) := do
  match ← current? with
  | some .dot =>
    if assigned = .first then
      rollback chain.mark
      pure (false, { chain with retry? := some .last })
    else
      advance
      let _ ← expect .identifier "expected a name"
      let more ← isAtAny [.dot, lpar, lbracket]
      let mark ← wrap chain.mark (nameKind (assigned = .last && !more))
      pure (true, { mark })
  | some (.opening .parenthesis) =>
    let _ ← nested .arguments
    let mark ← wrap chain.mark .callExpression
    pure (true, { mark })
  | some (.opening .bracket) =>
    advance
    let kind ← subscript nested
    let node ← completed chain.mark kind
    -- Only now is it seen whether the chain was read on the right assumption.
    if assigned = .nothing then
      let mark ← precede node
      pure (true, { mark })
    else
      rollbackCompleted node
      pure (false, { chain with retry? := some .nothing })
  | _ =>
    drop chain.mark
    pure (false, chain)

/-- Reads a chain on an assumption. -/
def chain (nested : Nested) (assigned : Assigned) : CheckedM ChainEnd := do
  let mark ← mark
  if !(← primary nested (assigned = .first)) then
    drop mark
    pure .missing
  else
    let ended ← loop (link nested assigned) { mark }
    match ended.retry? with
    | some assigned => pure (.retry assigned)
    | none => pure .found

/-- Reads a chain on weaker and weaker assumptions. -/
def Nested.chainFrom (nested : Nested) (assigned : Assigned) : CheckedM Bool := do
  match ← chain nested assigned with
  | .missing => pure false
  | .found => pure true
  | .retry assigned => nested |>.chainFrom assigned
partial_fixpoint

/-- A primary expression and its links. -/
def member (nested : Nested) (target : Bool) : CheckedM Bool :=
  nested.chainFrom (if target then .first else .nothing)

theorem mirrors_primary (mirrored : Mirrored nested plain depth) (target : Bool) :
    Mirrors here depth (primary nested target) (Grammar.primary plain target) := by
  intro base marks watched live
  have token (kind : NodeKind) : Mirrors here depth (do
      tokenNode kind
      pure true) (do
      Grammar.tokenNode kind
      pure true) := (mirrors_tokenNode kind).seq fun _ => .pure true
  refine matches_look live fun next same live => ?_
  cases seen : watched.parser.builder.current? with
  | none => exact .pure ⟨rfl, live⟩
  | some kind =>
      cases kind <;> first
        | exact token _ base marks next live
        | exact mirrored.display _ target base marks next live (same ▸ seen)
        | exact .pure ⟨rfl, live⟩

/-- The chain began in a state that it can be taken back to, and its mark is the marker of the rule
without assertions. -/
structure Chain.Began (base : Parser) (chain : Chain) (plain : Grammar.Chain) : Prop where
  marker : plain.marker = chain.mark.marker
  going : chain.retry? = none
  going' : plain.retry? = none
  made : chain.mark.marker.Since base 0
  start : chain.mark.marker.start = base.builder.events.size
  cursor : chain.mark.marker.cursor = base.builder.cursor

/-- A chain has been read, or is read once more on a weaker assumption. -/
structure Chain.Ended (assigned : Assigned) (chain : Chain) (plain : Grammar.Chain) : Prop where
  same : chain.retry? = plain.retry?
  weaker : ∀ weaker, chain.retry? = some weaker → weaker.rank < assigned.rank

section Chains

variable {base : Parser} {marks : List Mark} {watched : Watched} {chain : Chain}
  {plain' : Grammar.Chain}

/-- What is known after another link, or after the last one. -/
def Linked (base : Parser) (depth : Nat) (marks : List Mark) (assigned : Assigned)
    (given : Bool × Chain) (answer : Bool × Grammar.Chain) (next : Watched) : Prop :=
  given.1 = answer.1 ∧
    if answer.1 then given.2.Began base answer.2 ∧
      Live (Stays base) base depth (given.2.mark :: marks) next
    else given.2.Ended assigned answer.2 ∧ Live (Stays base) base depth marks next

/-- What was described since the beginning of a chain can be taken back altogether. -/
theorem taken_back (live : Live (Stays base) base depth marks watched)
    (inside : base.builder.cursor ≤ base.builder.significant.size) :
    { watched.parser with
      builder := watched.parser.builder.rollbackTo base.builder.events.size
        base.builder.cursor } = base := by
  have builder := live.since.builder.rollbackTo_eq inside
  have blocks := live.since.blocks
  obtain ⟨scopes, strayIndents⟩ := live.stands
  dsimp only
  rw [builder, scopes, blocks, strayIndents]

theorem matches_wrapLink (assigned : Assigned) (began : chain.Began base plain')
    (live : Live (Stays base) base depth (chain.mark :: marks) watched) (kind : NodeKind) :
    Matches (do
      let mark ← wrap chain.mark kind
      pure (true, ({ mark } : Chain))) (do
      let marker ← Grammar.wrap plain'.marker kind
      pure (true, ({ marker } : Grammar.Chain))) watched (Linked base depth marks assigned) := by
  rw [began.marker]
  refine (matches_wrap live began.made kind).bind ?_
  rintro mark _ next ⟨rfl, start, cursor, made, live⟩
  exact .pure ⟨rfl, ⟨rfl, rfl, rfl, made, start.trans began.start, cursor.trans began.cursor⟩, live⟩

/-- A chain is taken back at once, or after a subscript has been read. -/
theorem matches_retake (mirrored : Mirrored nested plain depth) {assigned : Assigned}
    (something : assigned ≠ .nothing) (began : chain.Began base plain')
    (live : Live (Stays base) base depth (chain.mark :: marks) watched) :
    Matches (do
      advance
      let kind ← subscript nested
      let node ← completed chain.mark kind
      rollbackCompleted node
      pure (false, { chain with retry? := some .nothing })) (do
      Grammar.rollback plain'.marker
      pure (false, { plain' with retry? := some .nothing })) watched
      (Linked base depth marks assigned) := by
  have inside : base.builder.cursor ≤ base.builder.significant.size :=
    began.cursor ▸ began.made.inside
  have read : Matches (do
      advance
      subscript nested) (do
      advance
      Grammar.subscript plain) watched fun _ _ next =>
        Live (Stays base) base depth (chain.mark :: marks) next := by
    refine mirrors_advance.bind live fun _ watched live => ?_
    exact (mirrors_subscript mirrored _ _ watched live).mono fun _ _ _ holds => holds.2
  have ends := (Grammar.keeps_advance.seq fun _ => Grammar.keeps_subscript mirrored.follows)
    base 0 _ live.since
  obtain ⟨kind, _, next, -, ran, live', -⟩ := read.given ends
  obtain ⟨_, middle, moved, ran⟩ := bind_eq_some.1 ran
  obtain ⟨last, ran', -, rest⟩ :=
    complete_eq (fun marker => Builder.done marker kind) live' began.made rfl
  have weaker : Assigned.rank .nothing < assigned.rank := by
    cases assigned with
    | nothing => contradiction
    | first | last => exact Nat.succ_pos _
  rintro _ _ ⟨⟩
  refine ⟨_, last.moved _, bind_eq_some.2 ⟨(), middle, moved, bind_eq_some.2 ⟨kind, next, ran,
    bind_eq_some.2 ⟨_, last, ran', rfl⟩⟩⟩, ?_, rfl, ⟨rfl, ?_⟩, ?_⟩
  · have back := (taken_back rest inside).trans (taken_back live inside).symm
    rw [← began.start, ← began.cursor] at back
    rw [began.marker]
    exact back
  · rintro _ ⟨⟩
    exact weaker
  · exact rest.takenBack began.made.start began.made.inside fun _ => live.below

theorem matches_link (mirrored : Mirrored nested plain depth) (assigned : Assigned)
    (began : chain.Began base plain')
    (live : Live (Stays base) base depth (chain.mark :: marks) watched) :
    Matches (link nested assigned chain) (Grammar.link plain assigned plain') watched
      (Linked base depth marks assigned) := by
  have dropped (watched : Watched)
      (live : Live (Stays base) base depth (chain.mark :: marks) watched) : Matches (do
        drop chain.mark
        pure (false, chain)) (do
        Grammar.drop plain'.marker
        pure (false, plain')) watched (Linked base depth marks assigned) := by
    rw [began.marker]
    refine (matches_drop live began.made).bind fun _ _ _ live => .pure ⟨rfl, ?_, live⟩
    refine ⟨began.going.trans began.going'.symm, fun weaker retried => ?_⟩
    cases began.going.symm.trans retried
  refine matches_look live fun next same live => ?_
  cases seen : watched.parser.builder.current? with
  | none => exact dropped next live
  | some kind =>
      cases kind with
      | dot =>
          refine .ite (fun first => ?_) fun _ => ?_
          · rw [began.marker]
            refine (matches_rollback live began.made).bind fun _ _ _ live =>
              .pure ⟨rfl, ⟨rfl, ?_⟩, live⟩
            rintro _ ⟨⟩
            exact first ▸ Nat.lt_succ_self 1
          · refine mirrors_advance.bind live fun _ watched live => ?_
            refine (mirrors_expect _ _).bind live fun _ watched live => ?_
            exact (mirrors_look _).bind live fun _ _ live => matches_wrapLink assigned began live _
      | opening delimiter =>
          cases delimiter with
          | parenthesis =>
              refine (mirrored.arguments _ _ next live (same ▸ seen)).bind ?_
              rintro _ _ next ⟨-, live⟩
              exact matches_wrapLink assigned began live _
          | bracket =>
              by_cases nothing : assigned = .nothing
              · simp only [if_pos nothing]
                refine mirrors_advance.bind live fun _ watched live => ?_
                refine (mirrors_subscript mirrored).bind live fun kind watched live => ?_
                have wrapped := matches_wrapLink assigned began live kind
                rw [wrap, bind_assoc] at wrapped
                exact wrapped
              · simp only [if_neg nothing]
                exact matches_retake mirrored nothing began live
          | brace => exact dropped next live
      | _ => exact dropped next live

end Chains

/-- A chain that is not read once more has been read, and one that is has been taken back. -/
theorem matches_chain (mirrored : Mirrored nested plain depth) (assigned : Assigned)
    {base : Parser} {marks : List Mark} {watched : Watched}
    (live : Live here base depth marks watched) :
    Matches (chain nested assigned) (Grammar.chain plain assigned) watched
      fun given answer next => given = answer ∧ Live here base depth marks next ∧
        ∀ weaker, answer = .retry weaker → weaker.rank < assigned.rank := by
  refine (matches_mark live.rebase).bind ?_
  rintro mark _ next ⟨rfl, made, live', -, start, cursor⟩
  refine (mirrors_primary mirrored _).bind live' fun found next live' => ?_
  cases found with
  | false =>
      exact (matches_drop live' made).bind fun _ _ _ live' => .pure ⟨rfl, live.based live', nofun⟩
  | true =>
      refine (Matches.loop (fun chain plain' next => chain.Began watched.parser plain' ∧
        Live (Stays watched.parser) watched.parser depth (chain.mark :: marks) next)
        (fun chain plain' next => chain.Ended assigned plain' ∧
          Live (Stays watched.parser) watched.parser depth marks next)
        (fun chain plain' next holds => matches_link mirrored assigned holds.1 holds.2)
        ⟨⟨rfl, rfl, rfl, made, start, cursor⟩, live'⟩).bind ?_
      rintro ended ended' next ⟨⟨same, weaker⟩, live'⟩
      rw [same] at weaker ⊢
      cases retried : ended'.retry? with
      | none => exact .pure ⟨rfl, live.based live', nofun⟩
      | some other =>
          refine .pure ⟨rfl, live.based live', ?_⟩
          rintro _ ⟨⟩
          exact weaker other retried

theorem mirrors_chainFrom (mirrored : Mirrored nested plain depth) (assigned : Assigned) :
    Mirrors here depth (nested.chainFrom assigned) (plain.chainFrom assigned) := by
  intro base marks watched live
  rw [Nested.chainFrom, Grammar.Nested.chainFrom]
  refine (matches_chain mirrored assigned live).bind ?_
  rintro ended _ next ⟨rfl, live, weaker⟩
  cases ended with
  | missing => exact .pure ⟨rfl, live⟩
  | found => exact .pure ⟨rfl, live⟩
  | retry other =>
      have lower := weaker other rfl
      exact mirrors_chainFrom mirrored other base marks next live
termination_by assigned.rank

theorem mirrors_member (mirrored : Mirrored nested plain depth) (target : Bool) :
    Mirrors here depth (member nested target) (Grammar.member plain target) :=
  mirrors_chainFrom mirrored _

end StarlarkSyntax.Checked
