import StarlarkSyntax.Grammar.Parser
/-!
# Moves and trails

Besides the builder's cursor and events a rule changes a few counters: how deep it is nested, how many blocks are
open, and the stack of scopes. Taking something back does not take these back, so each rule has to see to it that
they are in the end what they were. They are the `Context` of a parser.

What is between the beginning and the end of a rule is said by means of *moves*, the operations that all rules are
put together from. A `Trail` of a rule goes through all the moves of one run of it, and has the states after each
of them. On no trail is the nesting ever deeper than is allowed, unless it was so already at the beginning
(`Trail.depth_le`), because one move alone goes deeper and it looks first (`Move.depth_le`).
-/

set_option autoImplicit false

namespace StarlarkSyntax

/-- What a rule leaves as it was: the depth of nesting, the number of open blocks, and the scopes around the
current one. -/
structure Context where
  depth : Nat
  blocks : Nat
  outer : List Scope

/-- The context that a rule is followed in. -/
def Parser.context (parser : Parser) : Context where
  depth := parser.builder.depth
  blocks := parser.blocks
  outer := parser.scopes.outer

/-! ## The depth of a builder -/

namespace Builder

@[simp] theorem depth_push (event : Event) (builder : Builder) : (builder.push event).depth = builder.depth := rfl

@[simp] theorem depth_advance (builder : Builder) : builder.advance.depth = builder.depth := by
  unfold advance
  split <;> rfl

@[simp] theorem depth_missing (message : String) (builder : Builder) :
    (builder.missing message).depth = builder.depth := rfl

@[simp] theorem depth_complete (position : Nat) (completion : Completion) (builder : Builder) :
    (builder.complete position completion).depth = builder.depth := rfl

@[simp] theorem depth_truncate (length : Nat) (builder : Builder) :
    (builder.truncate length).depth = builder.depth := rfl

@[simp] theorem depth_drop (marker : Marker) (builder : Builder) : (builder.drop marker).depth = builder.depth := by
  unfold drop
  split <;> rfl

@[simp] theorem depth_matches? (kind : Kind) (builder : Builder) :
    (builder.matches? kind).2.depth = builder.depth := by
  unfold matches?
  split <;> simp

@[simp] theorem depth_expect (kind : Kind) (message : String) (builder : Builder) :
    (builder.expect kind message).2.depth = builder.depth := by
  unfold expect
  split <;> simp

@[simp] theorem depth_advanceError (message : String) (builder : Builder) :
    (builder.advanceError message).depth = builder.depth := by
  unfold advanceError error mark
  split <;> simp

end Builder

namespace Grammar

/-! ## Moves -/

/-- The moves of a builder, but for entering and leaving levels of nesting, by what they answer. -/
inductive Edit : Type → Type
  | advance : Edit Unit
  | matches? (kind : Kind) : Edit Bool
  | expect (kind : Kind) (message : String) : Edit Bool
  | missing (message : String) : Edit Unit
  | advanceError (message : String) : Edit Unit
  | mark : Edit Marker
  | done (marker : Marker) (kind : NodeKind) : Edit Unit
  | fault (marker : Marker) (message : String) : Edit Unit
  | wrap (marker : Marker) (kind : NodeKind) : Edit Marker
  | drop (marker : Marker) : Edit Unit
  | rollback (marker : Marker) : Edit Unit

namespace Edit

/-- What the move makes of a builder. -/
def change {α : Type} : Edit α → Builder → α × Builder
  | advance => fun builder => ((), builder.advance)
  | matches? kind => Builder.matches? kind
  | expect kind message => Builder.expect kind message
  | missing message => fun builder => ((), builder.missing message)
  | advanceError message => fun builder => ((), builder.advanceError message)
  | mark => Builder.mark
  | done marker kind => fun builder => ((), (builder.done marker kind).2)
  | fault marker message => fun builder => ((), (builder.error marker message).2)
  | wrap marker kind => fun builder => (builder.done marker kind).2.precede (builder.done marker kind).1
  | drop marker => fun builder => ((), builder.drop marker)
  | rollback marker => fun builder => ((), builder.rollback marker)

@[simp] theorem depth_change {α : Type} (edit : Edit α) (builder : Builder) :
    (edit.change builder).2.depth = builder.depth := by
  cases edit <;> simp [change, Builder.mark, Builder.done, Builder.error, Builder.precede, Builder.rollback,
    Builder.rollbackTo]

end Edit

/-- The operations that rules are put together from, by what they answer. -/
inductive Move : Type → Type 1
  /-- Looks at the parser. -/
  | look {α : Type} (view : Parser → α) : Move α
  | edit {α : Type} (edit : Edit α) : Move α
  /-- Goes one level deeper, if that is allowed. -/
  | enter : Move Bool
  | exit : Move Unit
  /-- Begins a scope that is made from the current one. -/
  | beginScope (change : Scope → Scope) : Move Unit
  | endScope : Move Unit
  | setAfterSemicolon (value : Bool) : Move Unit
  | beginBlock : Move Unit
  | endBlock : Move Unit
  /-- Counts an indent that begins no block. -/
  | noteStray : Move Unit
  | forgetStray : Move Unit

namespace Move

/-- The rule that makes just this move. -/
def rule {α : Type} : Move α → ParseM α
  | look view => fun parser => some (view parser, parser)
  | edit made => withBuilder made.change
  | enter => withBuilder Builder.enter
  | exit => onBuilder Builder.exit
  | beginScope change => onScopes fun scopes => scopes.push (change scopes.current)
  | endScope => onScopes Scopes.pop
  | setAfterSemicolon value => Grammar.setAfterSemicolon value
  | beginBlock => modify fun parser => { parser with blocks := parser.blocks + 1 }
  | endBlock => modify fun parser => { parser with blocks := parser.blocks - 1 }
  | noteStray => modify fun parser => { parser with strayIndents := parser.strayIndents + 1 }
  | forgetStray => modify fun parser => { parser with strayIndents := parser.strayIndents - 1 }

/-- Does the move begin or end something? -/
def isBorder {α : Type} : Move α → Bool
  | enter | exit | beginScope _ | endScope | beginBlock | endBlock => true
  | look _ | edit _ | setAfterSemicolon _ | noteStray | forgetStray => false

variable {α : Type} {parser next : Parser} {answer : α}

/-- Any other move leaves the context alone. -/
theorem context_eq (move : Move α) (inner : move.isBorder = false)
    (ran : move.rule parser = some (answer, next)) : next.context = parser.context := by
  cases move with
  | look view | setAfterSemicolon value | noteStray | forgetStray =>
      cases ran
      rfl
  | edit made =>
      cases ran
      exact congrArg (Context.mk · parser.blocks parser.scopes.outer) (made.depth_change parser.builder)
  | enter | exit | beginScope change | endScope | beginBlock | endBlock => cases inner

/-- A level is entered, or everything stays as it is. -/
theorem context_enter {entered : Bool} (ran : enter.rule parser = some (entered, next)) :
    next.context = ⟨parser.builder.depth + entered.toNat, parser.blocks, parser.scopes.outer⟩ := by
  by_cases deep : Builder.maxDepth ≤ parser.builder.depth
  · simp only [rule, withBuilder, Builder.enter, if_pos deep, Option.some.injEq, Prod.mk.injEq] at ran
    obtain ⟨rfl, rfl⟩ := ran
    rfl
  · simp only [rule, withBuilder, Builder.enter, if_neg deep, Option.some.injEq, Prod.mk.injEq] at ran
    obtain ⟨rfl, rfl⟩ := ran
    rfl

/-- Only one move goes deeper, and not if that would be too deep. -/
theorem depth_le (move : Move α) (ran : move.rule parser = some (answer, next)) {limit : Nat}
    (allowed : Builder.maxDepth ≤ limit) (reached : parser.builder.depth ≤ limit) :
    next.builder.depth ≤ limit := by
  cases move with
  | edit made =>
      cases ran
      exact Nat.le_trans (Nat.le_of_eq (made.depth_change parser.builder)) reached
  | enter =>
      cases ran
      show (Builder.enter parser.builder).2.depth ≤ limit
      unfold Builder.enter
      split
      · exact reached
      · dsimp only
        omega
  | exit =>
      cases ran
      exact Nat.le_trans (Nat.sub_le _ _) reached
  | _ =>
      cases ran
      exact reached

end Move

/-! ## Trails -/

/-- A run of a rule, followed along the way the rule is put together: from a state through those after each of the
moves. -/
inductive Trail : {α : Type} → ParseM α → Parser → List Parser → α → Parser → Prop
  | pure {α : Type} (answer : α) (parser : Parser) : Trail (pure answer) parser [] answer parser
  | move {α : Type} (move : Move α) {parser : Parser} {answer : α} {next : Parser}
      (ran : move.rule parser = some (answer, next)) : Trail move.rule parser [next] answer next
  | bind {α β : Type} {first : ParseM α} {more : α → ParseM β} {parser middle next : Parser}
      {before after : List Parser} {answer : α} {last : β} (begins : Trail first parser before answer middle)
      (goes_on : Trail (more answer) middle after last next) :
      Trail (first >>= more) parser (before ++ after) last next

namespace Trail

variable {α : Type} {rule : ParseM α} {parser next : Parser} {states : List Parser} {answer : α}

/-- A trail is one of a run. -/
theorem ran (trail : Trail rule parser states answer next) : rule parser = some (answer, next) := by
  induction trail with
  | pure answer parser => rfl
  | move move ran => exact ran
  | bind _ _ ih ih' =>
      change Option.bind _ _ = _
      rw [ih]
      exact ih'

theorem depth_le_of_le (trail : Trail rule parser states answer next) {limit : Nat}
    (allowed : Builder.maxDepth ≤ limit) (reached : parser.builder.depth ≤ limit) :
    next.builder.depth ≤ limit ∧ ∀ state ∈ states, state.builder.depth ≤ limit := by
  induction trail with
  | pure answer parser => exact ⟨reached, by simp⟩
  | move move ran =>
      have still := move.depth_le ran allowed reached
      exact ⟨still, by simpa using still⟩
  | bind _ _ ih ih' =>
      obtain ⟨middle, before⟩ := ih reached
      obtain ⟨last, after⟩ := ih' middle
      exact ⟨last, List.forall_mem_append.2 ⟨before, after⟩⟩

/-- No state of a trail is nested deeper than is allowed, or than the first one. -/
theorem depth_le (trail : Trail rule parser states answer next) :
    ∀ state ∈ states, state.builder.depth ≤ max parser.builder.depth Builder.maxDepth :=
  (trail.depth_le_of_le (Nat.le_max_right _ _) (Nat.le_max_left _ _)).2

end Trail
end Grammar
end StarlarkSyntax
