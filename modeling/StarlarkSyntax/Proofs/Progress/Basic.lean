import StarlarkSyntax.Proofs.Builder.Since
import StarlarkSyntax.Grammar.Nested
/-!
# Rules that end

A rule of the grammar may in principle go on forever. `Ends rule parser after` says that it does not
when it is followed from `parser`, and that its answer and the state it leaves satisfy `after`.

Every rule is followed with some `base` in mind, a state that the rule must take nothing back of, and
with a `floor`, a number of tokens that stay passed: `base.Since depth floor parser`. A marker that
was made since `base` can be resolved in any way at all (`Marker.Since`). What the rules have in
common is said by a few predicates: `Keeps`, that the rule ends and keeps all bases and floors;
`Finds`, that moreover it has passed a token if it says that it found something; `Passes`, that it
passes a token if one of a certain kind comes next; and `Leads`, that the next token decides whether
it does. An expression that is read a second time, as a target, is found again because of that.

Repetition is where a rule could fail to end. `Ends.loop` is about all of it: a repeated rule that
passes a token whenever it says to go on ends.
-/

set_option autoImplicit false

namespace StarlarkSyntax

/-- The state may have come of `base` without taking anything of that back, the tokens before `floor`
included. -/
structure Parser.Since (base : Parser) (depth floor : Nat) (parser : Parser) : Prop where
  builder : base.builder.Since parser.builder
  blocks : parser.blocks = base.blocks
  outer : parser.scopes.outer = base.scopes.outer
  atDepth : base.builder.depth = depth
  reached : floor ≤ parser.builder.cursor

/-- The marker was made since `base`, and after the tokens before `floor`. -/
structure Marker.Since (base : Parser) (floor : Nat) (marker : Marker) : Prop where
  start : base.builder.events.size ≤ marker.start
  position : base.builder.events.size ≤ marker.position
  inside : marker.cursor ≤ base.builder.significant.size
  reached : floor ≤ marker.cursor

/-- The same state at another depth of nesting. -/
def Parser.withDepth (parser : Parser) (depth : Nat) : Parser :=
  { parser with builder.depth := depth }

/-- The same state in a scope that is made from the current one. -/
def Parser.inScope (parser : Parser) (change : Scope → Scope) : Parser :=
  { parser with scopes := parser.scopes.push (change parser.scopes.current) }

/-- The same state in one more block. -/
def Parser.inBlock (parser : Parser) : Parser :=
  { parser with blocks := parser.blocks + 1 }

namespace Parser.Since

variable {base parser next : Parser} {depth floor : Nat}

theorem self (since : base.Since depth floor parser) :
    parser.Since depth parser.builder.cursor parser :=
  ⟨since.builder.self, rfl, rfl, since.builder.depth.trans since.atDepth, Nat.le_refl _⟩

theorem raise (since : base.Since depth floor parser) {higher : Nat}
    (reached : higher ≤ parser.builder.cursor) : base.Since depth higher parser :=
  { since with reached }

theorem lower (since : base.Since depth (floor + 1) parser) : base.Since depth floor parser :=
  since.raise (Nat.le_of_succ_le since.reached)

/-- One more token was passed, whatever was found. -/
theorem found (since : base.Since depth (floor + 1) parser) (any : Bool) :
    base.Since depth (floor + any.toNat) parser := by
  cases any with
  | false => exact since.lower
  | true => exact since

theorem trans {higher : Nat} (first : base.Since depth floor parser)
    (second : parser.Since depth higher next) : base.Since depth higher next :=
  ⟨first.builder.trans second.builder, second.blocks.trans first.blocks,
    second.outer.trans first.outer, first.atDepth, second.reached⟩

/-- A change of the builder alone. -/
theorem change (since : base.Since depth floor parser) {builder : Builder}
    (kept : base.builder.Since builder) (reached : floor ≤ builder.cursor) :
    base.Since depth floor { parser with builder } :=
  ⟨kept, since.blocks, since.outer, since.atDepth, reached⟩

theorem withDepth (since : base.Since depth floor parser) (deeper : Nat) :
    (base.withDepth deeper).Since deeper floor (parser.withDepth deeper) :=
  ⟨since.builder.atDepth deeper, since.blocks, since.outer, rfl, since.reached⟩

theorem inScope (since : base.Since depth floor parser) (change : Scope → Scope) :
    (parser.inScope change).Since depth parser.builder.cursor (parser.inScope change) :=
  ⟨since.builder.self, rfl, rfl, since.builder.depth.trans since.atDepth, Nat.le_refl _⟩

/-- What came of a state in a scope of its own leaves that scope for the one around it. -/
theorem outer_inScope {change : Scope → Scope} (later : (parser.inScope change).Since depth floor next) :
    next.scopes.outer = parser.scopes.current :: parser.scopes.outer :=
  later.outer

theorem leaveScope {higher : Nat} {change : Scope → Scope} (since : base.Since depth floor parser)
    (later : (parser.inScope change).Since depth higher next) :
    base.Since depth higher { next with scopes := next.scopes.pop } := by
  refine ⟨since.builder.trans later.builder, later.blocks.trans since.blocks, ?_, since.atDepth,
    later.reached⟩
  simp only [Scopes.pop, later.outer_inScope]
  exact since.outer

theorem inBlock (since : base.Since depth floor parser) :
    parser.inBlock.Since depth parser.builder.cursor parser.inBlock :=
  ⟨since.builder.self, rfl, rfl, since.builder.depth.trans since.atDepth, Nat.le_refl _⟩

theorem leaveBlock (later : parser.inBlock.Since depth floor next) :
    parser.Since depth floor { next with blocks := next.blocks - 1 } :=
  ⟨later.builder, by simp [later.blocks, Parser.inBlock], later.outer, later.atDepth, later.reached⟩

end Parser.Since

namespace Grammar

/-- The rule ends, with an answer and a state that satisfy a condition. -/
def Ends {α : Type} (rule : ParseM α) (parser : Parser) (after : α → Parser → Prop) : Prop :=
  ∃ answer next, rule parser = some (answer, next) ∧ after answer next

namespace Ends

variable {α β : Type} {rule : ParseM α} {parser : Parser} {after : α → Parser → Prop}

theorem mono {after' : α → Parser → Prop} (ends : Ends rule parser after)
    (implies : ∀ answer next, after answer next → after' answer next) :
    Ends rule parser after' := by
  obtain ⟨answer, next, run, holds⟩ := ends
  exact ⟨answer, next, run, implies answer next holds⟩

theorem pure {answer : α} (holds : after answer parser) :
    Ends (Pure.pure answer) parser after :=
  ⟨answer, parser, rfl, holds⟩

theorem bind {between : α → Parser → Prop} {more : α → ParseM β} {after : β → Parser → Prop}
    (ends : Ends rule parser between)
    (continues : ∀ answer next, between answer next → Ends (more answer) next after) :
    Ends (rule >>= more) parser after := by
  obtain ⟨answer, next, run, holds⟩ := ends
  obtain ⟨answer', next', run', holds'⟩ := continues answer next holds
  refine ⟨answer', next', ?_, holds'⟩
  change (rule parser).bind _ = _
  rw [run]
  exact run'

end Ends

/-- Looking changes nothing. -/
theorem ends_look {α β : Type} {view : Builder → α} {more : α → ParseM β} {parser : Parser}
    {after : β → Parser → Prop} (ends : Ends (more (view parser.builder)) parser after) :
    Ends (look view >>= more) parser after :=
  ends

theorem ends_isAt {β : Type} {kind : Kind} {more : Bool → ParseM β} {parser : Parser}
    {after : β → Parser → Prop} (ends : Ends (more (parser.builder.isAt kind)) parser after) :
    Ends (isAt kind >>= more) parser after :=
  ends

/-- The rule ends and takes nothing back that was there before. -/
def Keeps {α : Type} (depth : Nat) (rule : ParseM α) : Prop :=
  ∀ (base : Parser) (floor : Nat) (parser : Parser), base.Since depth floor parser →
    Ends rule parser fun _ next => base.Since depth floor next

/-- The rule ends, takes nothing back that was there before, and has passed a token if it says that
it found something. -/
def Finds (depth : Nat) (rule : ParseM Bool) : Prop :=
  ∀ (base : Parser) (floor : Nat) (parser : Parser), base.Since depth floor parser →
    Ends rule parser fun found next => base.Since depth (floor + found.toNat) next

/-- The rule ends, takes nothing back that was there before, and passes a token if the next one is of
the given kind. -/
def Passes {α : Type} (depth : Nat) (kind : Kind) (rule : ParseM α) : Prop :=
  ∀ (base : Parser) (floor : Nat) (parser : Parser), base.Since depth floor parser →
    parser.builder.current? = some kind →
      Ends rule parser fun _ next => base.Since depth (floor + 1) next

/-- The rule finds nothing, and takes nothing back, where it cannot start. -/
def Misses (depth : Nat) (starts : Kind → Bool) (rule : ParseM Bool) : Prop :=
  ∀ (base : Parser) (floor : Nat) (parser : Parser), base.Since depth floor parser →
    parser.builder.current?.any starts = false →
      Ends rule parser fun found next => found = false ∧ base.Since depth floor next

/-- The rule passes a token where it can start, and finds nothing elsewhere. -/
structure Leads (depth : Nat) (starts : Kind → Bool) (rule : ParseM Bool) : Prop where
  passes : ∀ kind, starts kind = true → Passes depth kind rule
  misses : Misses depth starts rule

section Composition

variable {α β : Type} {depth floor : Nat} {base parser : Parser} {after : β → Parser → Prop}

/-- What follows a rule that keeps everything. -/
theorem Keeps.bind {rule : ParseM α} {more : α → ParseM β} (keeps : Keeps depth rule)
    (since : base.Since depth floor parser)
    (continues : ∀ answer next, base.Since depth floor next → Ends (more answer) next after) :
    Ends (rule >>= more) parser after :=
  (keeps base floor parser since).bind continues

theorem Keeps.pure (answer : α) : Keeps depth (Pure.pure answer : ParseM α) :=
  fun _ _ _ since => .pure since

/-- Rules that keep everything one after another. -/
theorem Keeps.seq {rule : ParseM α} {more : α → ParseM β} (keeps : Keeps depth rule)
    (continues : ∀ answer, Keeps depth (more answer)) : Keeps depth (rule >>= more) :=
  fun base floor _ since => keeps.bind since fun answer next => continues answer base floor next

/-- What is reached from a state that was reached itself is reached from there, and the list of
events has not become shorter on the way. -/
theorem ends_later {rule : ParseM α} (higher : α → Nat) (since : base.Since depth floor parser)
    (ends : Ends rule parser fun answer next =>
      parser.Since depth (parser.builder.cursor + higher answer) next) :
    Ends rule parser fun answer next => base.Since depth (floor + higher answer) next ∧
      parser.builder.events.size ≤ next.builder.events.size := by
  refine ends.mono fun answer next later => ?_
  have reached := since.reached
  have reached' := later.reached
  exact ⟨(since.trans later).raise (by omega), later.builder.size⟩

theorem Keeps.size {rule : ParseM α} (keeps : Keeps depth rule)
    (since : base.Since depth floor parser) :
    Ends rule parser fun _ next => base.Since depth floor next ∧
      parser.builder.events.size ≤ next.builder.events.size :=
  ends_later (fun _ => 0) since (keeps parser _ parser since.self)

theorem Passes.size {rule : ParseM α} {kind : Kind} (passes : Passes depth kind rule)
    (since : base.Since depth floor parser) (seen : parser.builder.current? = some kind) :
    Ends rule parser fun _ next => base.Since depth (floor + 1) next ∧
      parser.builder.events.size ≤ next.builder.events.size :=
  ends_later (fun _ => 1) since (passes parser _ parser since.self seen)

variable {rule : ParseM Bool}

theorem Finds.keeps (finds : Finds depth rule) : Keeps depth rule :=
  fun base floor parser since => (finds base floor parser since).mono fun _ _ since =>
    since.raise (Nat.le_trans (Nat.le_add_right _ _) since.reached)

theorem Leads.finds {starts : Kind → Bool} (leads : Leads depth starts rule) :
    Finds depth rule := by
  intro base floor parser since
  have missed (nowhere : parser.builder.current?.any starts = false) :
      Ends rule parser fun found next => base.Since depth (floor + found.toNat) next := by
    refine (leads.misses base floor parser since nowhere).mono fun found next holds => ?_
    obtain ⟨rfl, since⟩ := holds
    exact since
  cases seen : parser.builder.current? with
  | none => exact missed (by rw [seen]; rfl)
  | some kind =>
      cases start : starts kind with
      | false => exact missed (by rw [seen]; exact start)
      | true =>
          exact (leads.passes kind start base floor parser since seen).mono
            fun found _ since => since.found found

/-- What follows a rule goes on with a higher floor if that has found something. -/
theorem Finds.bind {more : Bool → ParseM β} (finds : Finds depth rule)
    (since : base.Since depth floor parser)
    (found : ∀ next, base.Since depth (floor + 1) next → Ends (more true) next after)
    (missed : ∀ next, base.Since depth floor next → Ends (more false) next after) :
    Ends (rule >>= more) parser after := by
  refine (finds base floor parser since).bind fun answer next since => ?_
  cases answer with
  | false => exact missed next since
  | true => exact found next since

end Composition

/-! ## Operations of the builder -/

section Operations

variable {base parser : Parser} {depth floor : Nat} {marker : Marker}

theorem ends_mark (since : base.Since depth floor parser) :
    Ends mark parser fun marker next => base.Since depth floor next ∧ marker.Since base floor ∧
      marker.start < next.builder.events.size ∧ marker.cursor = parser.builder.cursor ∧
        next.builder.nth? = parser.builder.nth? := by
  refine ⟨_, _, rfl, since.change since.builder.mark since.reached, ⟨?_, ?_, ?_, ?_⟩, ?_, rfl, rfl⟩
  · exact since.builder.size
  · exact since.builder.size
  · exact since.builder.inside
  · exact since.reached
  · simp [Builder.push]

theorem ends_done (since : base.Since depth floor parser) {lower : Nat}
    (made : marker.Since base lower) (kind : NodeKind) :
    Ends (done marker kind) parser fun _ next => base.Since depth floor next :=
  ⟨_, _, rfl, since.change (since.builder.complete _ made.position) since.reached⟩

theorem ends_fault (since : base.Since depth floor parser) {lower : Nat}
    (made : marker.Since base lower) (message : String) :
    Ends (fault marker message) parser fun _ next => base.Since depth floor next :=
  ⟨_, _, rfl, since.change (since.builder.complete _ made.position) since.reached⟩

theorem cursor_drop (builder : Builder) (marker : Marker) :
    (builder.drop marker).cursor = builder.cursor := by
  unfold Builder.drop
  split <;> rfl

theorem ends_drop (since : base.Since depth floor parser) {lower : Nat}
    (made : marker.Since base lower) :
    Ends (drop marker) parser fun _ next => base.Since depth floor next := by
  have same := cursor_drop parser.builder marker
  exact ⟨_, _, rfl, since.change (since.builder.drop made.position) (same ▸ since.reached)⟩

theorem ends_rollback {lower : Nat} (since : base.Since depth floor parser)
    (made : marker.Since base lower) :
    Ends (rollback marker) parser fun _ next => base.Since depth lower next ∧
      next.builder.cursor = marker.cursor :=
  ⟨_, _, rfl, ⟨since.builder.rollbackTo made.start made.inside, since.blocks, since.outer,
    since.atDepth, made.reached⟩, rfl⟩

theorem ends_wrap (since : base.Since depth floor parser) {lower : Nat}
    (made : marker.Since base lower) (inside : marker.start < parser.builder.events.size)
    (kind : NodeKind) :
    Ends (wrap marker kind) parser fun wrapper next => base.Since depth floor next ∧
      wrapper.Since base lower ∧ wrapper.start < next.builder.events.size ∧
        wrapper.cursor = marker.cursor := by
  have completed := since.builder.complete (.node kind) made.position
  have size : (parser.builder.complete marker.position (.node kind)).events.size =
      parser.builder.events.size + 1 := by
    simp [Builder.complete]
  have preceded : base.builder.Since (Builder.precede ⟨marker.start, marker.cursor⟩
      (parser.builder.complete marker.position (.node kind))).2 :=
    completed.precede made.start (size ▸ Nat.lt_succ_of_lt inside)
  refine ⟨_, _, rfl, since.change preceded since.reached,
    ⟨made.start, ?_, made.inside, made.reached⟩, ?_, rfl⟩
  · have := since.builder.size
    change _ ≤ (parser.builder.complete marker.position (.node kind)).events.size
    omega
  · change marker.start < (Builder.precede ⟨marker.start, marker.cursor⟩
      (parser.builder.complete marker.position (.node kind))).2.events.size
    simp only [Builder.precede, Builder.mark, Builder.push, Array.size_modify, Array.size_push]
    omega

theorem atEnd_of_current? {builder : Builder} {kind : Kind} (seen : builder.current? = some kind) :
    builder.atEnd = false := by
  have := builder.sub_lt_of_nth? seen
  simp only [Builder.remaining] at this
  simp only [Builder.atEnd, decide_eq_false_iff_not]
  omega

theorem cursor_advance {builder : Builder} {kind : Kind} (seen : builder.current? = some kind) :
    builder.advance.cursor = builder.cursor + 1 := by
  rw [Builder.advance, atEnd_of_current? seen]
  rfl

theorem keeps_advance : Keeps depth advance := by
  intro base floor parser since
  refine ⟨_, _, rfl, since.change since.builder.advance (Nat.le_trans since.reached ?_)⟩
  unfold Builder.advance
  split
  · exact Nat.le_refl _
  · exact Nat.le_succ _

theorem passes_advance (kind : Kind) : Passes depth kind advance := by
  intro base floor parser since seen
  refine ⟨_, _, rfl, since.builder.advance, since.blocks, since.outer, since.atDepth, ?_⟩
  have reached := since.reached
  have cursor := cursor_advance seen
  change floor + 1 ≤ parser.builder.advance.cursor
  omega

theorem keeps_missing (message : String) : Keeps depth (missing message) := fun _ _ _ since =>
  ⟨_, _, rfl, since.change (since.builder.missing message) since.reached⟩

theorem current?_of_isAt {builder : Builder} {kind : Kind} (isAt : builder.isAt kind = true) :
    builder.current? = some kind := by
  simpa [Builder.isAt] using isAt

theorem current?_of_isAtAny {builder : Builder} {kinds : List Kind}
    (isAt : builder.isAtAny kinds = true) : ∃ kind ∈ kinds, builder.current? = some kind := by
  unfold Builder.isAtAny at isAt
  cases seen : builder.current? with
  | none => simp [seen] at isAt
  | some kind => exact ⟨kind, by simpa [seen] using isAt, rfl⟩

theorem exists_current? {builder : Builder} (more : builder.atEnd = false) :
    ∃ kind, builder.current? = some kind := by
  simp only [Builder.atEnd, decide_eq_false_iff_not, Nat.not_le] at more
  exact ⟨builder.significant[builder.cursor].kind,
    by simp [Builder.current?, Builder.nth?, Builder.nthToken?, more]⟩

theorem isAt_eq_any (builder : Builder) (kind : Kind) :
    builder.isAt kind = builder.current?.any (· == kind) := by
  rw [Builder.isAt]
  cases builder.current? <;> rfl

theorem leads_matches? (kind : Kind) : Leads depth (· == kind) (matches? kind) where
  passes seen' same base floor parser since seen := by
    cases eq_of_beq same
    obtain ⟨_, next, run, since⟩ := passes_advance kind base floor parser since seen
    refine ⟨true, next, ?_, since⟩
    simp only [advance, onBuilder, withBuilder, Option.some.injEq, Prod.mk.injEq] at run
    simp [matches?, withBuilder, Builder.matches?, Builder.isAt, seen, run.2]
  misses base floor parser since away := by
    rw [← isAt_eq_any] at away
    refine ⟨false, parser, ?_, rfl, since⟩
    simp [matches?, withBuilder, Builder.matches?, away]

theorem finds_matches? (kind : Kind) : Finds depth (matches? kind) :=
  (leads_matches? kind).finds

theorem finds_expect (kind : Kind) (message : String) : Finds depth (expect kind message) := by
  intro base floor parser since
  cases isAt : parser.builder.isAt kind with
  | false =>
      obtain ⟨_, next, run, since⟩ := keeps_missing message base floor parser since
      refine ⟨false, next, ?_, since⟩
      simp only [missing, onBuilder, withBuilder, Option.some.injEq, Prod.mk.injEq] at run
      simp [expect, withBuilder, Builder.expect, isAt, run.2]
  | true =>
      obtain ⟨_, next, run, since⟩ :=
        passes_advance kind base floor parser since (current?_of_isAt isAt)
      refine ⟨true, next, ?_, since⟩
      simp only [advance, onBuilder, withBuilder, Option.some.injEq, Prod.mk.injEq] at run
      simp [expect, withBuilder, Builder.expect, isAt, run.2]

theorem keeps_require {rule : ParseM Bool} (message : String) (keeps : Keeps depth rule) :
    Keeps depth (require message rule) :=
  keeps.seq fun found => by
    cases found with
    | false => exact keeps_missing message
    | true => exact .pure ()

/-- A rule that is one of two, depending on the next token, leads where either of them does. -/
theorem Leads.or {rule special other : ParseM Bool} {here starts : Kind → Bool}
    (passes : ∀ kind, here kind = true → Passes depth kind special)
    (leads : Leads depth starts other)
    (atHere : ∀ parser : Parser, parser.builder.current?.any here = true →
      rule parser = special parser)
    (elsewhere : ∀ parser : Parser, parser.builder.current?.any here = false →
      rule parser = other parser) :
    Leads depth (fun kind => here kind || starts kind) rule := by
  refine ⟨fun kind start base floor parser since seen => ?_, fun base floor parser since away => ?_⟩
  · cases isHere : here kind with
    | true =>
        rw [Ends, atHere parser (by rw [seen]; exact isHere)]
        exact passes kind isHere base floor parser since seen
    | false =>
        rw [Ends, elsewhere parser (by rw [seen]; exact isHere)]
        rw [isHere] at start
        exact leads.passes kind start base floor parser since seen
  · have both : parser.builder.current?.any here = false ∧
        parser.builder.current?.any starts = false := by
      cases seen : parser.builder.current? with
      | none => exact ⟨rfl, rfl⟩
      | some kind => simpa [seen] using away
    rw [Ends, elsewhere parser both.1]
    exact leads.misses base floor parser since both.2

theorem passes_advanceError (kind : Kind) (message : String) :
    Passes depth kind (advanceError message) := by
  intro base floor parser since seen
  have moved : parser.builder.advanceError message =
      (parser.builder.mark.2.advance.error parser.builder.mark.1 message).2 := by
    rw [Builder.advanceError, atEnd_of_current? seen]
    rfl
  have cursor : parser.builder.mark.2.advance.cursor = parser.builder.cursor + 1 :=
    cursor_advance seen
  have reached := since.reached
  have kept : base.builder.Since
      (parser.builder.mark.2.advance.error parser.builder.mark.1 message).2 :=
    since.builder.mark.advance.complete (.error message) since.builder.size
  refine ⟨(), { parser with builder := parser.builder.advanceError message }, rfl, ?_⟩
  rw [moved]
  refine ⟨kept, since.blocks, since.outer, since.atDepth, ?_⟩
  change floor + 1 ≤ parser.builder.mark.2.advance.cursor
  omega

/-- A node of a token that is there passes it. -/
theorem passes_tokenNode (token : Kind) (kind : NodeKind) :
    Passes depth token (tokenNode kind) := by
  intro base floor parser since seen
  refine (ends_mark since).bind fun marker next ⟨since, made, _, _, view⟩ => ?_
  have seen : next.builder.current? = some token := (congrFun view 0).trans seen
  refine (passes_advance token base floor next since seen).bind fun _ next since => ?_
  exact ends_done since made kind

theorem keeps_tokenNode (kind : NodeKind) : Keeps depth (tokenNode kind) := by
  intro base floor parser since
  refine (ends_mark since).bind fun marker next ⟨since, made, _⟩ => ?_
  refine keeps_advance.bind since fun _ next since => ?_
  exact ends_done since made kind

theorem keeps_emptyNode (kind : NodeKind) : Keeps depth (emptyNode kind) := by
  intro base floor parser since
  refine (ends_mark since).bind fun marker next ⟨since, made, _⟩ => ?_
  exact ends_done since made kind

end Operations

/-! ## Repetition -/

/-- A repeated rule ends if it keeps an invariant, and passes a token in each round after which it
goes on. The induction is on the number of tokens that are left. -/
theorem Ends.loop {σ : Type} {rule : σ → ParseM (Bool × σ)} {base : Parser} {depth floor : Nat}
    (invariant after : σ → Parser → Prop)
    (round : ∀ state parser higher, floor ≤ higher → base.Since depth higher parser →
      invariant state parser → Ends (rule state) parser fun (goOn, state) next =>
        if goOn then base.Since depth (higher + 1) next ∧ invariant state next
        else after state next)
    (state : σ) (parser : Parser) (since : base.Since depth floor parser)
    (holds : invariant state parser) : Ends (loop rule state) parser after := by
  rw [loop_eq]
  refine (round state parser parser.builder.cursor since.reached (since.raise (Nat.le_refl _))
    holds).bind fun (goOn, state) next holds => ?_
  cases goOn with
  | false => exact .pure holds
  | true =>
      obtain ⟨later, holds⟩ := holds
      have reached := since.reached
      have moved := later.reached
      have inside := later.builder.inside
      exact Ends.loop invariant after round state next (later.raise (by omega)) holds
termination_by base.builder.significant.size - parser.builder.cursor
decreasing_by omega

section Repetition

variable {depth : Nat}

/-- A repeated rule that passes a token in each round after which it goes on. -/
theorem keeps_loop {σ : Type} {rule : σ → ParseM (Bool × σ)}
    (round : ∀ state (base : Parser) floor parser, base.Since depth floor parser →
      Ends (rule state) parser fun answer next => base.Since depth (floor + answer.1.toNat) next)
    (state : σ) : Keeps depth (loop rule state) := by
  intro base floor parser since
  refine Ends.loop (fun _ _ => True) _ (fun state parser higher le since _ => ?_) state parser since
    trivial
  refine (round state base higher parser since).mono fun (goOn, _) next since => ?_
  cases goOn with
  | false => exact since.raise (Nat.le_trans le since.reached)
  | true => exact ⟨since, trivial⟩

/-- A rule that is repeated while it says so and some condition holds. -/
theorem ends_repeatWhile {rule : ParseM Bool} {base : Parser} {floor : Nat}
    (condition : Parser → Prop)
    (round : ∀ parser floor, base.Since depth floor parser → condition parser →
      Ends rule parser fun goOn next => base.Since depth (floor + goOn.toNat) next ∧
        (goOn = true → condition next))
    (parser : Parser) (since : base.Since depth floor parser) (holds : condition parser) :
    Ends (repeatWhile rule) parser fun _ next => base.Since depth floor next := by
  refine Ends.loop (fun _ => condition) _ (fun _ parser higher le since holds => ?_) () parser since
    holds
  refine (round parser higher since holds).bind fun goOn next ⟨since, holds⟩ => .pure ?_
  cases goOn with
  | false => exact since.raise (Nat.le_trans le since.reached)
  | true => exact ⟨since, holds rfl⟩

theorem keeps_repeatWhile {rule : ParseM Bool} (finds : Finds depth rule) :
    Keeps depth (repeatWhile rule) :=
  keeps_loop (fun _ base floor parser since =>
    (finds base floor parser since).bind fun _ _ since => .pure since) ()

theorem finds_skipUntil (stops : List Kind) : Finds depth (skipUntil stops) := by
  intro base floor parser since
  -- The state of the loop says whether a token was passed so far.
  let after (skipped : Bool) (next : Parser) : Prop := base.Since depth (floor + skipped.toNat) next
  refine Ends.loop after after ?_ false parser since since
  intro skipped parser higher le since holds
  refine ends_look (ends_look ?_)
  split
  · exact .pure holds
  · rename_i more
    rw [Bool.or_eq_true, not_or, Bool.not_eq_true] at more
    obtain ⟨kind, seen⟩ := exists_current? more.1
    refine (passes_advance kind base higher parser since seen).bind fun _ next since => ?_
    exact .pure ⟨since, since.raise (Nat.le_trans (Nat.succ_le_succ le) since.reached)⟩

end Repetition

/-! ## Nesting -/

/-- Can a token of this kind be passed where the limit of nesting is reached? -/
def skippable : Kind → Bool
  | .statementBreak | .closing _ => false
  | _ => true

section Nesting

variable {base parser : Parser} {depth floor : Nat}

theorem ends_skipRound (since : base.Since depth floor parser) (opened : Nat) :
    Ends (skipRound opened) parser fun answer next =>
      base.Since depth (floor + answer.1.toNat) next := by
  refine ends_look ?_
  split
  · exact .pure since
  · exact .pure since
  · rename_i kind _ seen
    refine (passes_advance kind base floor parser since seen).bind fun _ next since => ?_
    exact .pure (since.found _)

/-- The first round passes a token even if it is also the last. -/
theorem passes_skipRounds {kind : Kind} (start : skippable kind = true) :
    Passes depth kind (loop skipRound 0) := by
  intro base floor parser since seen
  rw [loop_eq]
  have first : Ends (skipRound 0) parser fun _ next => base.Since depth (floor + 1) next := by
    refine ends_look ?_
    rw [seen]
    split
    · contradiction
    · rename_i ended
      cases ended
      contradiction
    · exact (passes_advance kind base floor parser since seen).bind fun _ _ since => .pure since
  refine first.bind fun (goOn, opened) next since => ?_
  cases goOn with
  | false => exact .pure since
  | true =>
      exact keeps_loop (fun opened _ _ _ since => ends_skipRound since opened) opened base _ next
        since

theorem leads_skipTooDeep : Leads depth skippable skipTooDeep where
  passes kind start base floor parser since seen := by
    refine ends_look ?_
    rw [seen]
    split <;> rename_i ended
    · contradiction
    · cases ended
      contradiction
    · cases ended
      contradiction
    · refine (ends_mark since).bind fun junk next ⟨since, made, _, _, view⟩ => ?_
      have seen := (congrFun view 0).trans seen
      refine (passes_skipRounds start base floor next since seen).bind fun _ next since => ?_
      exact (ends_fault since made tooDeep).bind fun _ _ since => .pure since
  misses base floor parser since nowhere := by
    refine ends_look ?_
    split
    · exact (keeps_missing tooDeep).bind since fun _ _ since => .pure ⟨rfl, since⟩
    · exact (keeps_missing tooDeep).bind since fun _ _ since => .pure ⟨rfl, since⟩
    · exact (keeps_missing tooDeep).bind since fun _ _ since => .pure ⟨rfl, since⟩
    · rename_i kind _ _ seen
      have : skippable kind = false := by simpa [seen] using nowhere
      cases kind <;> first | contradiction | simp_all

theorem ends_enter (since : base.Since depth floor parser) (shallow : depth < Builder.maxDepth) :
    Ends (withBuilder Builder.enter) parser fun entered next =>
      entered = true ∧ next = parser.withDepth (depth + 1) := by
  have atDepth := since.builder.depth.trans since.atDepth
  have entered : parser.builder.enter = (true, { parser.builder with depth := depth + 1 }) := by
    rw [Builder.enter, atDepth, if_neg (Nat.not_le.2 shallow)]
  refine ⟨true, _, ?_, rfl, rfl⟩
  simp only [withBuilder, entered, Parser.withDepth]

/-- At the limit no level is entered. -/
theorem ends_enter_of_le (since : base.Since depth floor parser)
    (deep : Builder.maxDepth ≤ depth) :
    Ends (withBuilder Builder.enter) parser fun entered next =>
      entered = false ∧ next = parser := by
  have atDepth := since.builder.depth.trans since.atDepth
  have entered : parser.builder.enter = (false, parser.builder) := by
    rw [Builder.enter, atDepth, if_pos deep]
  refine ⟨false, parser, ?_, rfl, rfl⟩
  simp only [withBuilder, entered]

theorem ends_exit (since : (base.withDepth (depth + 1)).Since (depth + 1) floor parser)
    (atDepth : base.builder.depth = depth) :
    Ends (onBuilder Builder.exit) parser fun _ next => base.Since depth floor next := by
  have builder := since.builder.atDepth depth
  have exited : parser.builder.exit = { parser.builder with depth } := by
    simp only [Builder.exit, since.builder.depth, since.atDepth, Nat.add_sub_cancel]
  subst atDepth
  exact ⟨_, _, rfl, exited ▸ builder, since.blocks, since.outer, rfl, since.reached⟩

/-- Above the limit, a rule is followed one level deeper. -/
theorem ends_nest {rule : ParseM Bool} {higher : Bool → Nat} (after : Bool → Prop)
    (since : base.Since depth floor parser) (shallow : depth < Builder.maxDepth)
    (ends : Ends rule (parser.withDepth (depth + 1)) fun found next =>
      after found ∧ (base.withDepth (depth + 1)).Since (depth + 1) (higher found) next) :
    Ends (nest rule) parser fun found next => after found ∧ base.Since depth (higher found) next := by
  refine (ends_enter since shallow).bind ?_
  rintro _ _ ⟨rfl, rfl⟩
  refine ends.bind fun found next ⟨holds, later⟩ => ?_
  exact (ends_exit later since.atDepth).bind fun _ _ since => .pure ⟨holds, since⟩

/-- At the limit, tokens are passed over. -/
theorem ends_nest_of_le {rule : ParseM Bool} {after : Bool → Parser → Prop}
    (since : base.Since depth floor parser) (deep : Builder.maxDepth ≤ depth)
    (ends : Ends skipTooDeep parser after) : Ends (nest rule) parser after := by
  refine (ends_enter_of_le since deep).bind ?_
  rintro _ _ ⟨rfl, rfl⟩
  exact ends

/-- A rule that is followed one level deeper, or passed over, where a token comes that it passes. -/
theorem passes_nest {rule : ParseM Bool} {kind : Kind} (start : skippable kind = true)
    (passes : depth < Builder.maxDepth → Passes (depth + 1) kind rule) :
    Passes depth kind (nest rule) := by
  intro base floor parser since seen
  by_cases shallow : depth < Builder.maxDepth
  · refine (ends_nest (fun _ => True) since shallow ?_).mono fun _ _ holds => holds.2
    exact (passes shallow _ floor _ (since.withDepth _) seen).mono fun _ _ since => ⟨trivial, since⟩
  · exact ends_nest_of_le since (Nat.not_lt.1 shallow)
      (leads_skipTooDeep.passes kind start base floor parser since seen)

/-- A rule that is followed one level deeper, or passed over. -/
theorem leads_nest {rule : ParseM Bool} {starts : Kind → Bool}
    (leads : depth < Builder.maxDepth → Leads (depth + 1) starts rule) :
    Leads depth (if depth < Builder.maxDepth then starts else skippable) (nest rule) := by
  by_cases shallow : depth < Builder.maxDepth
  · rw [if_pos shallow]
    refine ⟨fun kind start base floor parser since seen => ?_, fun base floor parser since away => ?_⟩
    · refine (ends_nest (fun _ => True) since shallow ?_).mono fun _ _ holds => holds.2
      exact ((leads shallow).passes kind start _ floor _ (since.withDepth _) seen).mono
        fun _ _ since => ⟨trivial, since⟩
    · exact ends_nest (· = false) since shallow ((leads shallow).misses _ floor _ (since.withDepth _) away)
  · rw [if_neg shallow]
    have deep := Nat.not_lt.1 shallow
    exact ⟨fun kind start base floor parser since seen => ends_nest_of_le since deep
        (leads_skipTooDeep.passes kind start base floor parser since seen),
      fun base floor parser since away => ends_nest_of_le since deep
        (leads_skipTooDeep.misses base floor parser since away)⟩

theorem finds_nest {rule : ParseM Bool}
    (finds : depth < Builder.maxDepth → Finds (depth + 1) rule) : Finds depth (nest rule) := by
  intro base floor parser since
  by_cases shallow : depth < Builder.maxDepth
  · refine (ends_nest (fun _ => True) since shallow ?_).mono fun _ _ holds => holds.2
    exact (finds shallow _ floor _ (since.withDepth _)).mono fun _ _ since => ⟨trivial, since⟩
  · exact ends_nest_of_le since (Nat.not_lt.1 shallow)
      (leads_skipTooDeep.finds base floor parser since)

end Nesting

end Grammar
end StarlarkSyntax
