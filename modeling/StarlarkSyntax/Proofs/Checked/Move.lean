import StarlarkSyntax.Proofs.Checked.Live
/-!
# What the operations do to live marks

For each operation of a checked rule there is one lemma. A mark becomes the newest one that is alive
when it is made (`matches_mark`), and it has to be the newest one to be resolved: `matches_done`,
`matches_fault`, `matches_drop`, `matches_rollback` and `matches_wrap`. Operations that resolve no
mark leave all of them alive (`mirrors_lift`).
-/

set_option autoImplicit false

namespace StarlarkSyntax.Checked

open Grammar (withBuilder onBuilder look isAt isAtWord isAtOperator atEnd advance matches? expect
  missing skipUntil skipRound tooDeep)

/-! ## Following one rule after another -/

section Composition

variable {α β γ : Type} {here : Scopes → Nat → Prop} {base : Parser} {depth : Nat}
  {marks : List Mark} {watched : Watched}

theorem Mirrors.bind {checked : CheckedM α} {rule : ParseM α} {more : α → CheckedM β}
    {more' : α → ParseM γ} {after : β → γ → Watched → Prop} (mirrors : Mirrors here depth checked rule)
    (live : Live here base depth marks watched)
    (continues : ∀ answer next, Live here base depth marks next →
      Matches (more answer) (more' answer) next after) :
    Matches (checked >>= more) (rule >>= more') watched after := by
  refine (mirrors base marks watched live).bind ?_
  rintro given _ next ⟨rfl, live⟩
  exact continues given next live

theorem Mirrors.pure (answer : α) : Mirrors here depth (Pure.pure answer) (Pure.pure answer) :=
  fun _ _ _ live => .pure ⟨rfl, live⟩

/-- Checked rules one after another do what the rules do. -/
theorem Mirrors.seq {checked : CheckedM α} {rule : ParseM α} {more : α → CheckedM β}
    {more' : α → ParseM β} (mirrors : Mirrors here depth checked rule)
    (continues : ∀ answer, Mirrors here depth (more answer) (more' answer)) :
    Mirrors here depth (checked >>= more) (rule >>= more') :=
  fun base marks _ live => mirrors.bind live fun answer next =>
    continues answer base marks next

theorem Mirrors.ite {claim : Prop} [Decidable claim] {checked checked' : CheckedM α}
    {rule rule' : ParseM α} (yes : Mirrors here depth checked rule)
    (no : Mirrors here depth checked' rule') :
    Mirrors here depth (if claim then checked else checked') (if claim then rule else rule') := by
  split
  · exact yes
  · exact no

end Composition

/-! ## Operations that resolve no mark -/

section Lifting

variable {α β γ : Type} {here : Scopes → Nat → Prop} {base : Parser} {depth : Nat}
  {marks : List Mark} {watched : Watched}

theorem Calm.bind {rule : ParseM α} {more : α → ParseM β} (calm : Calm rule)
    (continues : ∀ answer, Calm (more answer)) : Calm (rule >>= more) := by
  intro parser answer next ran
  obtain ⟨between, middle, first, rest⟩ := bind_eq_some.1 ran
  obtain ⟨scopes, strayIndents⟩ := calm parser between middle first
  obtain ⟨scopes', strayIndents'⟩ := continues between middle answer next rest
  exact ⟨scopes'.trans scopes, strayIndents'.trans strayIndents⟩

theorem calm_pure (answer : α) : Calm (pure answer) := by
  rintro parser _ _ ⟨⟩
  exact ⟨rfl, rfl⟩

theorem calm_look (view : Builder → α) : Calm (look view) := by
  rintro parser _ _ ⟨⟩
  exact ⟨rfl, rfl⟩

theorem calm_withBuilder (change : Builder → α × Builder) : Calm (withBuilder change) := by
  rintro parser _ _ ⟨⟩
  exact ⟨rfl, rfl⟩

theorem calm_onBuilder (change : Builder → Builder) : Calm (onBuilder change) :=
  calm_withBuilder _

theorem calm_loop {σ : Type} {rule : σ → ParseM (Bool × σ)} (calm : ∀ state, Calm (rule state))
    (state : σ) : Calm (Grammar.loop rule state) := by
  intro parser answer next ran
  refine goOn_induct (fun round parser _ next => Calm round →
    Stays parser next.scopes next.strayIndents) ?_ ?_ _ _ _ _ ran (calm state)
  · exact fun round parser state next ran calm => calm parser _ _ ran
  · intro round parser state next answer final ran ih calm'
    obtain ⟨scopes, strayIndents⟩ := calm' parser _ _ ran
    obtain ⟨scopes', strayIndents'⟩ := ih (calm state)
    exact ⟨scopes'.trans scopes, strayIndents'.trans strayIndents⟩

/-- A rule that takes nothing back may be followed as a single operation. -/
theorem Live.lifted (live : Live here base depth marks watched) {parser : Parser} {floor : Nat}
    (since : watched.parser.Since depth floor parser)
    (stands : here parser.scopes parser.strayIndents) :
    Live here base depth marks (watched.moved parser) := by
  refine live.moved ((live.since.trans since).raise (Nat.zero_le _)) stands (List.Sublist.refl _)
    fun mark mem => ?_
  rw [Builder.begins, since.builder.events _ (live.position_lt mem)]
  exact live.begins mem

/-- An operation that leaves the events alone may change anything else. -/
theorem Live.placed (live : Live here base depth marks watched) {here' : Scopes → Nat → Prop}
    {base' parser : Parser} {depth' : Nat} (since : base'.Since depth' 0 parser)
    (stands : here' parser.scopes parser.strayIndents)
    (events : parser.builder.events = watched.parser.builder.events) :
    Live here' base' depth' marks (watched.moved parser) where
  since := since
  stands := stands
  stamped := Watched.length_stamps_moved parser
  owned := fun mark mem => Watched.owns_moved (live.owned mark mem) (by
    rw [Builder.begins, events]
    exact live.begins mem)
  begun := live.begun
  nested := live.nested

theorem lift_eq {rule : ParseM α} {answer : α} {parser : Parser}
    (ran : rule watched.parser = some (answer, parser)) :
    lift rule watched = some (answer, watched.moved parser) := by
  rw [lift, ran]
  rfl

theorem matches_lifted {rule : ParseM α} {answer : α} {parser : Parser}
    {after : α → α → Watched → Prop} (ran : rule watched.parser = some (answer, parser))
    (holds : after answer answer (watched.moved parser)) :
    Matches (lift rule) rule watched after := by
  intro answer' parser' ran'
  cases ran.symm.trans ran'
  exact ⟨answer, _, lift_eq ran, rfl, holds⟩

/-- A rule that takes nothing back, if the rules still stand where they have to after it. -/
theorem matches_keeps {rule : ParseM α} (keeps : Grammar.Keeps depth rule)
    (live : Live here base depth marks watched)
    (stands : ∀ answer parser, rule watched.parser = some (answer, parser) →
      here parser.scopes parser.strayIndents) :
    Matches (lift rule) rule watched (Agrees here base depth marks) := by
  obtain ⟨answer, parser, ran, since⟩ := keeps watched.parser _ watched.parser live.since.self
  exact matches_lifted ran ⟨rfl, live.lifted since (stands answer parser ran)⟩

theorem mirrors_lift {rule : ParseM α} (keeps : Grammar.Keeps depth rule) (calm : Calm rule) :
    Mirrors here depth (lift rule) rule := by
  intro base marks watched live
  refine matches_keeps keeps live fun answer parser ran => ?_
  obtain ⟨scopes, strayIndents⟩ := calm _ _ _ ran
  rw [scopes, strayIndents]
  exact live.stands

theorem mirrors_keeps {rule : ParseM α} (keeps : Grammar.Keeps depth rule) :
    Mirrors Anywhere depth (lift rule) rule :=
  fun _ _ _ live => matches_keeps keeps live fun _ _ _ => trivial

/-- Looking leaves the parser as it is. -/
theorem matches_look {view : Builder → α} {more : α → CheckedM β} {more' : α → ParseM γ}
    {after : β → γ → Watched → Prop} (live : Live here base depth marks watched)
    (continues : ∀ next, next.parser = watched.parser → Live here base depth marks next →
      Matches (more (view watched.parser.builder)) (more' (view watched.parser.builder)) next
        after) :
    Matches (lift (look view) >>= more) (look view >>= more') watched after := by
  have looked : Matches (lift (look view)) (look view) watched fun given answer next =>
      given = view watched.parser.builder ∧ answer = view watched.parser.builder ∧
        next = watched.moved watched.parser := matches_lifted rfl ⟨rfl, rfl, rfl⟩
  refine looked.bind ?_
  rintro _ _ _ ⟨rfl, rfl, rfl⟩
  exact continues _ rfl (live.lifted live.since.self live.stands)

theorem mirrors_look (view : Builder → α) : Mirrors here depth (lift (look view)) (look view) :=
  fun _ _ _ live => matches_lifted rfl ⟨rfl, live.lifted live.since.self live.stands⟩

theorem matches_isAt {kind : Kind} {more : Bool → CheckedM β} {more' : Bool → ParseM γ}
    {after : β → γ → Watched → Prop} (live : Live here base depth marks watched)
    (continues : ∀ next, next.parser = watched.parser → Live here base depth marks next →
      Matches (more (watched.parser.builder.isAt kind)) (more' (watched.parser.builder.isAt kind))
        next after) :
    Matches (lift (isAt kind) >>= more) (isAt kind >>= more') watched after :=
  matches_look live continues

theorem mirrors_isAt (kind : Kind) : Mirrors here depth (lift (isAt kind)) (isAt kind) :=
  mirrors_look _

theorem mirrors_isAtWord (word : Reserved) :
    Mirrors here depth (lift (isAtWord word)) (isAtWord word) :=
  mirrors_isAt _

theorem mirrors_isAtOperator (symbol : Operator) :
    Mirrors here depth (lift (isAtOperator symbol)) (isAtOperator symbol) :=
  mirrors_isAt _

theorem mirrors_advance : Mirrors here depth (lift advance) advance :=
  mirrors_lift Grammar.keeps_advance (calm_onBuilder _)

theorem mirrors_missing (message : String) : Mirrors here depth (lift (missing message)) (missing message) :=
  mirrors_lift (Grammar.keeps_missing message) (calm_onBuilder _)

theorem mirrors_matches? (kind : Kind) : Mirrors here depth (lift (matches? kind)) (matches? kind) :=
  mirrors_lift (Grammar.finds_matches? kind).keeps (calm_withBuilder _)

theorem mirrors_expect (kind : Kind) (message : String) :
    Mirrors here depth (lift (expect kind message)) (expect kind message) :=
  mirrors_lift (Grammar.finds_expect kind message).keeps (calm_withBuilder _)

theorem calm_skipUntil (stops : List Kind) : Calm (skipUntil stops) := by
  refine calm_loop (fun skipped => ?_) false
  refine (calm_look _).bind fun ended => (calm_look _).bind fun stopped => ?_
  split
  · exact calm_pure _
  · exact (calm_onBuilder _).bind fun _ => calm_pure _

theorem mirrors_skipUntil (stops : List Kind) :
    Mirrors here depth (lift (skipUntil stops)) (skipUntil stops) :=
  mirrors_lift (Grammar.finds_skipUntil stops).keeps (calm_skipUntil stops)

theorem mirrors_require {checked : CheckedM Bool} {rule : ParseM Bool} (message : String)
    (mirrors : Mirrors here depth checked rule) :
    Mirrors here depth (require message checked) (Grammar.require message rule) :=
  mirrors.seq fun found => by
    cases found with
    | false => exact mirrors_missing message
    | true => exact .pure ()

theorem mirrors_loop {σ : Type} {rule : σ → CheckedM (Bool × σ)} {rule' : σ → ParseM (Bool × σ)}
    (round : ∀ state, Mirrors here depth (rule state) (rule' state)) (state : σ) :
    Mirrors here depth (loop rule state) (Grammar.loop rule' state) := by
  intro base marks watched live
  refine Matches.loop (fun state state' watched => state = state' ∧ Live here base depth marks watched)
    _ ?_ ⟨rfl, live⟩
  rintro state _ watched ⟨rfl, live⟩
  refine (round state base marks watched live).mono ?_
  rintro given _ next ⟨rfl, live⟩
  refine ⟨rfl, ?_⟩
  split <;> exact ⟨rfl, live⟩

theorem mirrors_repeatWhile {rule : CheckedM Bool} {rule' : ParseM Bool}
    (round : Mirrors here depth rule rule') :
    Mirrors here depth (repeatWhile rule) (Grammar.repeatWhile rule') :=
  mirrors_loop (fun _ => round.seq fun goOn => .pure (goOn, ())) ()

end Lifting

/-! ## Operations on marks -/

section Marking

variable {here : Scopes → Nat → Prop} {base : Parser} {depth : Nat} {marks : List Mark}
  {mark : Mark} {watched : Watched}

/-- After a mark has been resolved, the others are alive. -/
theorem Matches.agrees {checked : CheckedM Unit} {rule : ParseM Unit}
    (resolved : Matches checked rule watched fun _ _ next => Live here base depth marks next) :
    Matches checked rule watched (Agrees here base depth marks) :=
  resolved.mono fun _ _ _ live => ⟨rfl, live⟩

theorem Matches.answers {α : Type} {checked : CheckedM Unit} {rule : ParseM Unit} (answer : α)
    (resolved : Matches checked rule watched fun _ _ next => Live here base depth marks next) :
    Matches (checked >>= fun _ => Pure.pure answer) (rule >>= fun _ => Pure.pure answer) watched
      (Agrees here base depth marks) :=
  resolved.bind fun _ _ _ live => .pure ⟨rfl, live⟩

theorem matches_mark (live : Live here base depth marks watched) :
    Matches Checked.mark Grammar.mark watched fun mark marker next => mark.marker = marker ∧
      mark.marker.Since base 0 ∧ Live here base depth (mark :: marks) next ∧
        next.parser.builder.nth? = watched.parser.builder.nth? ∧
          mark.marker.start = watched.parser.builder.events.size ∧
            mark.marker.cursor = watched.parser.builder.cursor := by
  rintro _ _ ⟨⟩
  obtain ⟨_, _, ⟨⟩, since, made, -⟩ := Grammar.ends_mark live.since
  refine ⟨⟨_, watched.clock⟩, _, rfl, rfl, rfl, made, ?_, rfl, rfl, rfl⟩
  exact live.marked since live.stands (fun index begins => Builder.begins_push begins _) rfl
    (Builder.begins_mark _) (Nat.le_refl _) fun mark mem => live.position_lt mem

/-- Completing the newest mark succeeds, because it is alive. -/
theorem complete_eq {α : Type} (change : Marker → Builder → α × Builder) {answer : α}
    {completion : Completion} (live : Live here base depth (mark :: marks) watched)
    (made : mark.marker.Since base 0) (changes : change mark.marker watched.parser.builder =
      (answer, watched.parser.builder.complete mark.marker.position completion)) :
    ∃ next, complete mark change watched = some (answer, next) ∧ next.parser =
        { watched.parser with
          builder := watched.parser.builder.complete mark.marker.position completion } ∧
      Live here base depth marks next := by
  refine ⟨watched.moved _, bind_eq_some.2 ⟨(), watched, ?_, ?_⟩, rfl, ?_⟩
  · rw [assert, if_pos (live.owned mark List.mem_cons_self)]
  · change lift (withBuilder _) watched = _
    rw [lift, withBuilder, changes]
    rfl
  · refine live.moved (live.since.change (live.since.builder.complete _ made.position)
      live.since.reached) live.stands (List.sublist_cons_self _ _) fun older mem => ?_
    exact Builder.begins_complete (live.begins (List.mem_cons_of_mem _ mem)) _ _

/-- A mark that was taken back is not alive, even where another beginning stands in its place. -/
example : (do
    let stale ← Checked.mark
    rollback stale
    let _ ← Checked.mark
    done stale .file : CheckedM Unit) { parser := { builder := .ofLexed ⟨[], []⟩ } } = none := rfl

theorem matches_done (live : Live here base depth (mark :: marks) watched)
    (made : mark.marker.Since base 0) (kind : NodeKind) :
    Matches (done mark kind) (Grammar.done mark.marker kind) watched fun _ _ next =>
      Live here base depth marks next := by
  rintro _ _ ⟨⟩
  obtain ⟨next, ran, same, live⟩ := complete_eq (fun marker => Builder.done marker kind) live made rfl
  exact ⟨(), next, bind_eq_some.2 ⟨_, next, ran, rfl⟩, same, live⟩

theorem matches_fault (live : Live here base depth (mark :: marks) watched)
    (made : mark.marker.Since base 0) (message : String) :
    Matches (fault mark message) (Grammar.fault mark.marker message) watched fun _ _ next =>
      Live here base depth marks next := by
  rintro _ _ ⟨⟩
  obtain ⟨next, ran, same, live⟩ := complete_eq (fun marker => Builder.error marker message) live made rfl
  exact ⟨(), next, bind_eq_some.2 ⟨_, next, ran, rfl⟩, same, live⟩

theorem matches_drop (live : Live here base depth (mark :: marks) watched)
    (made : mark.marker.Since base 0) :
    Matches (drop mark) (Grammar.drop mark.marker) watched fun _ _ next =>
      Live here base depth marks next := by
  rintro _ _ ⟨⟩
  obtain ⟨_, _, ⟨⟩, since⟩ := Grammar.ends_drop live.since made
  refine ⟨(), _, rfl, rfl, live.moved since live.stands (List.sublist_cons_self _ _)
    fun older mem => ?_⟩
  have earlier := Nat.lt_of_lt_of_le (live.below mem) (live.begun mark List.mem_cons_self)
  exact Builder.begins_drop (live.begins (List.mem_cons_of_mem _ mem)) earlier

/-- Taking back what was described since some place leaves the marks alive that are older. -/
theorem Live.takenBack (live : Live here base depth marks watched) {start cursor : Nat}
    (new : base.builder.events.size ≤ start) (inside : cursor ≤ base.builder.significant.size)
    (below : ∀ older ∈ marks, older.marker.position < start) :
    Live here base depth marks (watched.moved
      { watched.parser with builder := watched.parser.builder.rollbackTo start cursor }) := by
  refine live.moved (live.since.change (live.since.builder.rollbackTo new inside) (Nat.zero_le _))
    live.stands (List.Sublist.refl _) fun older mem => ?_
  exact Builder.begins_truncate (live.begins mem) (below older mem)

theorem matches_rollback (live : Live here base depth (mark :: marks) watched)
    (made : mark.marker.Since base 0) :
    Matches (rollback mark) (Grammar.rollback mark.marker) watched fun _ _ next =>
      Live here base depth marks next := by
  rintro _ _ ⟨⟩
  exact ⟨(), _, rfl, rfl, live.tail.takenBack made.start made.inside fun _ => live.below⟩

/-- A mark around a node begins where the node begins. -/
theorem matches_wrap (live : Live here base depth (mark :: marks) watched)
    (made : mark.marker.Since base 0) (kind : NodeKind) :
    Matches (wrap mark kind) (Grammar.wrap mark.marker kind) watched fun wrapper marker next =>
      wrapper.marker = marker ∧ wrapper.marker.start = mark.marker.start ∧
        wrapper.marker.cursor = mark.marker.cursor ∧ wrapper.marker.Since base 0 ∧
          Live here base depth (wrapper :: marks) next := by
  rintro _ _ ⟨⟩
  obtain ⟨_, _, ⟨⟩, since, around, -⟩ := Grammar.ends_wrap live.since made live.start_lt kind
  obtain ⟨next, ran, same, rest⟩ := complete_eq (fun marker => Builder.done marker kind) live made rfl
  obtain ⟨⟨builder, _, _, _⟩, _, _⟩ := next
  cases same
  refine ⟨⟨_, _⟩, _, bind_eq_some.2 ⟨_, _, ran, rfl⟩, rfl, rfl, rfl, rfl, around, ?_⟩
  have size : mark.marker.start <
      (watched.parser.builder.complete mark.marker.position (.node kind)).events.size := by
    have inside := live.start_lt
    simp only [Builder.complete, Array.size_push, Array.size_modify]
    omega
  refine rest.marked since rest.stands (fun index begins => ?_) rfl ?_ (Nat.le_of_lt size)
    fun older mem => live.below mem
  · exact Builder.begins_precede (Builder.begins_push begins _) _
  · exact Builder.begins_precede (Builder.begins_mark _) _

/-! ## Combinations -/

theorem mirrors_tokenNode (kind : NodeKind) :
    Mirrors here depth (tokenNode kind) (Grammar.tokenNode kind) := by
  intro base marks watched live
  refine (matches_mark live).bind ?_
  rintro token _ watched ⟨rfl, made, live, -⟩
  refine mirrors_advance.bind live fun _ watched live => ?_
  exact (matches_done live made kind).agrees

theorem mirrors_emptyNode (kind : NodeKind) :
    Mirrors here depth (emptyNode kind) (Grammar.emptyNode kind) := by
  intro base marks watched live
  refine (matches_mark live).bind ?_
  rintro place _ watched ⟨rfl, made, live, -⟩
  exact (matches_done live made kind).agrees

/-- The rule of the builder is the one that is made of its operations. -/
theorem advanceError_eq (message : String) : Grammar.advanceError message = (do
    if ← atEnd then missing message
    else
      let junk ← Grammar.mark
      advance
      Grammar.fault junk message) := by
  funext parser
  change some ((), { parser with builder := parser.builder.advanceError message }) =
    (if parser.builder.atEnd then missing message else _ : ParseM Unit) parser
  unfold Builder.advanceError
  split <;> rfl

theorem mirrors_advanceError (message : String) :
    Mirrors here depth (advanceError message) (Grammar.advanceError message) := by
  rw [advanceError_eq]
  refine (mirrors_look _).seq fun atEnd => .ite (mirrors_missing message) ?_
  intro base marks watched live
  refine (matches_mark live).bind ?_
  rintro junk _ watched ⟨rfl, made, live, -⟩
  refine mirrors_advance.bind live fun _ watched live => ?_
  exact (matches_fault live made message).agrees

end Marking

/-! ## Nesting -/

section Nesting

variable {here : Scopes → Nat → Prop} {base : Parser} {depth : Nat} {marks : List Mark}
  {watched : Watched}

theorem calm_skipRound (opened : Nat) : Calm (skipRound opened) := by
  refine (calm_look _).bind fun next => ?_
  split
  · exact calm_pure _
  · exact calm_pure _
  · exact (calm_onBuilder _).bind fun _ => calm_pure _

theorem mirrors_skipRounds :
    Mirrors here depth (lift (Grammar.loop skipRound 0)) (Grammar.loop skipRound 0) :=
  mirrors_lift (Grammar.keeps_loop (fun opened _ _ _ since => Grammar.ends_skipRound since opened) 0)
    (calm_loop calm_skipRound 0)

theorem mirrors_skipTooDeep : Mirrors here depth skipTooDeep Grammar.skipTooDeep := by
  have missed : Mirrors here depth (do
      missing tooDeep
      Pure.pure false) (do
      missing tooDeep
      Pure.pure false) := (mirrors_missing tooDeep).seq fun _ => .pure false
  have skipped : Mirrors here depth (do
      let junk ← mark
      let _ ← Grammar.loop skipRound 0
      fault junk tooDeep
      Pure.pure true) (do
      let junk ← Grammar.mark
      let _ ← Grammar.loop skipRound 0
      Grammar.fault junk tooDeep
      Pure.pure true) := by
    intro base marks watched live
    refine (matches_mark live).bind ?_
    rintro junk _ watched ⟨rfl, made, live, -⟩
    refine mirrors_skipRounds.bind live fun _ watched live => ?_
    exact (matches_fault live made tooDeep).answers _
  refine (mirrors_look _).seq fun next? => ?_
  rcases next? with _ | kind
  · exact missed
  · cases kind <;> first
      | exact missed
      | exact skipped

theorem matches_enter (live : Live here base depth marks watched)
    (shallow : depth < Builder.maxDepth) :
    Matches (lift (withBuilder Builder.enter)) (withBuilder Builder.enter) watched
      fun entered entered' next => entered = true ∧ entered' = true ∧
        next.parser = watched.parser.withDepth (depth + 1) ∧
          Live here (base.withDepth (depth + 1)) (depth + 1) marks next := by
  obtain ⟨_, _, ran, rfl, rfl⟩ := Grammar.ends_enter live.since shallow
  exact matches_lifted ran
    ⟨rfl, rfl, rfl, live.placed (live.since.withDepth (depth + 1)) live.stands rfl⟩

theorem matches_enter_of_le (live : Live here base depth marks watched)
    (deep : Builder.maxDepth ≤ depth) :
    Matches (lift (withBuilder Builder.enter)) (withBuilder Builder.enter) watched
      fun entered entered' next => entered = false ∧ entered' = false ∧
        Live here base depth marks next := by
  obtain ⟨_, _, ran, rfl, rfl⟩ := Grammar.ends_enter_of_le live.since deep
  exact matches_lifted ran ⟨rfl, rfl, live.lifted live.since.self live.stands⟩

/-- There is a level to leave after a rule one level deeper. -/
theorem matches_exit
    (live : Live here (base.withDepth (depth + 1)) (depth + 1) marks watched)
    (atDepth : base.builder.depth = depth) :
    Matches exit (onBuilder Builder.exit) watched fun _ _ next =>
      Live here base depth marks next := by
  have entered : 0 < watched.parser.builder.depth := by
    rw [live.since.builder.depth.trans live.since.atDepth]
    exact Nat.succ_pos depth
  obtain ⟨_, _, ⟨⟩, since⟩ := Grammar.ends_exit live.since atDepth
  exact .assert (decide_eq_true entered)
    (matches_lifted rfl (live.placed since live.stands rfl))

theorem matches_nest {checked : CheckedM Bool} {rule : ParseM Bool}
    (live : Live here base depth marks watched)
    (deeper : depth < Builder.maxDepth → ∀ next,
      next.parser = watched.parser.withDepth (depth + 1) →
        Live here (base.withDepth (depth + 1)) (depth + 1) marks next →
          Matches checked rule next (Agrees here (base.withDepth (depth + 1)) (depth + 1) marks)) :
    Matches (nest checked) (Grammar.nest rule) watched (Agrees here base depth marks) := by
  by_cases shallow : depth < Builder.maxDepth
  · refine (matches_enter live shallow).bind ?_
    rintro _ _ next ⟨rfl, rfl, same, live'⟩
    refine (deeper shallow next same live').bind ?_
    rintro found _ next ⟨rfl, live'⟩
    exact (matches_exit live' live.since.atDepth).answers _
  · refine (matches_enter_of_le live (Nat.not_lt.1 shallow)).bind ?_
    rintro _ _ next ⟨rfl, rfl, live⟩
    exact mirrors_skipTooDeep base marks next live

end Nesting

end StarlarkSyntax.Checked
