import StarlarkSyntax.Grammar.Statement
import StarlarkSyntax.Proofs.Checked.Matches
import StarlarkSyntax.Proofs.Context.Moves
/-!
# Rules that restore their context

A rule `Restores` its context if each run of it follows a trail and ends in the context that it began in. Most
rules do because the rules that they are put together from do, one after the other, by cases or again and again;
so that is found by instances. What remains are the rules that begin something. Each of them ends it again,
whatever is done between: `nest` leaves the level that it entered, `within` its scope, and `blockOf` its block and
its level.
-/

set_option autoImplicit false

namespace StarlarkSyntax.Grammar

/-- The run of a rule follows a trail, and ends in the context that it began in. -/
structure Restored {α : Type} (rule : ParseM α) (parser : Parser) (answer : α) (next : Parser) : Prop where
  followed : ∃ states, Trail rule parser states answer next
  context : next.context = parser.context

/-- Each run of the rule restores the context. -/
class Restores {α : Type} (rule : ParseM α) : Prop where
  restored {parser : Parser} {answer : α} {next : Parser} (ran : rule parser = some (answer, next)) :
    Restored rule parser answer next

open Restores (restored)

variable {α β σ : Type}

/-! ## Rules one after the other, and by cases -/

theorem Restored.bind {first : ParseM α} {more : α → ParseM β} {parser middle next : Parser} {between : α}
    {answer : β} (before : Restored first parser between middle)
    (after : Restored (more between) middle answer next) : Restored (first >>= more) parser answer next := by
  obtain ⟨⟨states, trail⟩, same⟩ := before
  obtain ⟨⟨states', trail'⟩, same'⟩ := after
  exact ⟨⟨states ++ states', trail.bind trail'⟩, same'.trans same⟩

theorem Restored.pure (answer : α) (parser : Parser) : Restored (pure answer) parser answer parser :=
  ⟨⟨[], .pure answer parser⟩, rfl⟩

theorem Restores.seq {first : ParseM α} {more : α → ParseM β} (begins : Restores first)
    (goes_on : ∀ answer, Restores (more answer)) : Restores (first >>= more) where
  restored ran := by
    obtain ⟨between, middle, first, rest⟩ := bind_eq_some.1 ran
    exact (restored first).bind (restored rest)

instance {first : ParseM α} {more : α → ParseM β} [Restores first] [∀ answer, Restores (more answer)] :
    Restores (first >>= more) := .seq inferInstance inferInstance

instance (answer : α) : Restores (pure answer : ParseM α) where
  restored ran := by
    cases ran
    exact .pure _ _

instance {claim : Prop} [Decidable claim] {rule other : ParseM α} [Restores rule] [Restores other] :
    Restores (if claim then rule else other) := by
  split <;> infer_instance

instance : Restores (unending : ParseM α) where
  restored ran := by cases ran

/-! ## Moves -/

theorem restores_move (move : Move α) (inner : move.isBorder = false) : Restores move.rule where
  restored ran := ⟨⟨_, .move move ran⟩, move.context_eq inner ran⟩

instance (view : Builder → α) : Restores (look view) := restores_move (.look (view ·.builder)) rfl
instance : Restores current? := inferInstanceAs (Restores (look _))
instance : Restores atEnd := inferInstanceAs (Restores (look _))
instance (kind : Kind) : Restores (isAt kind) := inferInstanceAs (Restores (look _))
instance (kinds : List Kind) : Restores (isAtAny kinds) := inferInstanceAs (Restores (look _))
instance (word : Reserved) : Restores (isAtWord word) := inferInstanceAs (Restores (isAt _))
instance (symbol : Operator) : Restores (isAtOperator symbol) := inferInstanceAs (Restores (isAt _))

section

variable (marker : Marker) (kind : Kind) (message : String)

instance : Restores advance := restores_move (.edit .advance) rfl
instance : Restores (matches? kind) := restores_move (.edit (.matches? kind)) rfl
instance : Restores (expect kind message) := restores_move (.edit (.expect kind message)) rfl
instance : Restores (missing message) := restores_move (.edit (.missing message)) rfl
instance : Restores (advanceError message) := restores_move (.edit (.advanceError message)) rfl
instance : Restores mark := restores_move (.edit .mark) rfl
instance (kind : NodeKind) : Restores (done marker kind) := restores_move (.edit (.done marker kind)) rfl
instance : Restores (fault marker message) := restores_move (.edit (.fault marker message)) rfl
instance (kind : NodeKind) : Restores (wrap marker kind) := restores_move (.edit (.wrap marker kind)) rfl
instance : Restores (drop marker) := restores_move (.edit (.drop marker)) rfl
instance : Restores (rollback marker) := restores_move (.edit (.rollback marker)) rfl

end

instance : Restores scope := restores_move (.look (·.scopes.current)) rfl
instance : Restores strayIndents := restores_move (.look (·.strayIndents)) rfl
instance : Restores blocks := restores_move (.look (·.blocks)) rfl
instance (value : Bool) : Restores (setAfterSemicolon value) := restores_move (.setAfterSemicolon value) rfl
instance : Restores (modify fun parser => { parser with strayIndents := parser.strayIndents + 1 } : ParseM Unit) :=
  restores_move .noteStray rfl
instance : Restores (modify fun parser => { parser with strayIndents := parser.strayIndents - 1 } : ParseM Unit) :=
  restores_move .forgetStray rfl

/-! ## Repetition -/

theorem goOn_eq (rule : σ → ParseM (Bool × σ)) (round : ParseM (Bool × σ)) :
    round.goOn rule = (do
      let (again, state) ← round
      if again then loop rule state else pure state : ParseM σ) := by
  funext parser
  rw [ParseM.goOn]
  refine Option.bind_congr ?_
  rintro ⟨⟨again, state⟩, next⟩ -
  cases again <;> rfl

/-- A loop follows the trails of its rounds. -/
instance {rule : σ → ParseM (Bool × σ)} [∀ state, Restores (rule state)] (state : σ) :
    Restores (loop rule state) where
  restored {parser answer next} ran := by
    refine goOn_induct (fun round parser answer next => Restores round →
      Restored (round.goOn rule) parser answer next) ?_ ?_ (rule state) parser answer next ran inferInstance
    · intro round parser state next ran _
      rw [goOn_eq]
      exact (restored ran).bind (.pure state next)
    · intro round parser state middle answer next ran again _
      rw [goOn_eq]
      exact (restored ran).bind (again inferInstance)

instance {rule : ParseM Bool} [Restores rule] : Restores (repeatWhile rule) := by
  unfold repeatWhile
  infer_instance

instance (message : String) {rule : ParseM Bool} [Restores rule] : Restores (require message rule) := by
  unfold require
  infer_instance

instance (stops : List Kind) : Restores (skipUntil stops) := by
  unfold skipUntil
  infer_instance

instance (kind : NodeKind) : Restores (tokenNode kind) := by
  unfold tokenNode
  infer_instance

instance (kind : NodeKind) : Restores (emptyNode kind) := by
  unfold emptyNode
  infer_instance

/-! ## Recursion -/

/-- Something holds of all that a rule gives. -/
def Always (holds : Parser → α → Parser → Prop) (rule : ParseM α) : Prop :=
  ∀ parser answer next, rule parser = some (answer, next) → holds parser answer next

/-- What holds of all that the approximations of some rules give holds of all that their limit gives, if rules are
ordered by where they give something: the limit gives no more than what is left of it where this holds. -/
theorem always_of_limit {F ι : Type} {below : F → F → Prop} {approximations : F → Prop} {limit : F}
    (least : ∀ f, below limit f ↔ ∀ g, approximations g → below g f) (rules : F → ι → ParseM α)
    (made : ∀ given, ∃ f, rules f = given) {order : Option (α × Parser) → Option (α × Parser) → Prop}
    (pointwise : ∀ f g, below f g ↔ ∀ i parser, order (rules f i parser) (rules g i parser))
    (none_le : ∀ result?, order none result?) (refl : ∀ result?, order result? result?)
    (of_le : ∀ result? other?, order result? other? → result? = none ∨ result? = other?)
    {holds : ι → Parser → α → Parser → Prop} (all : ∀ g, approximations g → ∀ i, Always (holds i) (rules g i))
    (i : ι) : Always (holds i) (rules limit i) := by
  classical
  have flat (f g : F) :
      below f g ↔ ∀ i parser, rules f i parser = none ∨ rules f i parser = rules g i parser := by
    refine (pointwise f g).trans (forall_congr' fun i => forall_congr' fun parser => ⟨of_le _ _, ?_⟩)
    rintro (nothing | same)
    · exact nothing ▸ none_le _
    · exact same ▸ refl _
  intro parser answer next given
  obtain ⟨kept, is⟩ := made fun i parser =>
    if ∀ answer next, rules limit i parser = some (answer, next) → holds i parser answer next
    then rules limit i parser else none
  have enough : below limit kept := by
    refine (least kept).2 fun g mem => (flat g kept).2 fun i parser => ?_
    have less := (flat g limit).1 ((least limit).1 ((flat limit limit).2 fun _ _ => .inr rfl) g mem) i parser
    refine less.imp_right fun same => ?_
    simp only [is]
    rw [if_pos fun answer next given => all g mem i parser answer next (same.trans given)]
    exact same
  by_contra fails
  have left := (flat limit kept).1 enough i parser
  simp only [is] at left
  rw [if_neg fun all => fails (all answer next given), given] at left
  simp at left

/-! ## Nesting -/

-- What is taken by cases on a token is a theorem, so that all that `split` derives for the cases stays in its proof.

@[instance]
theorem restores_skipRound (opened : Nat) : Restores (skipRound opened) := by
  unfold skipRound
  refine .seq inferInstance fun kind? => ?_
  split <;> infer_instance

@[instance]
theorem restores_skipTooDeep : Restores skipTooDeep := by
  unfold skipTooDeep
  refine .seq inferInstance fun kind? => ?_
  split <;> infer_instance

/-- The level that is entered is left again; where it is too deep none is entered. -/
instance {rule : ParseM Bool} [Restores rule] : Restores (nest rule) where
  restored {parser _ next} ran := by
    obtain ⟨entered, inner, enters, rest⟩ := bind_eq_some.1 ran
    have deeper := Move.context_enter enters
    cases entered with
    | false =>
        have skips : skipTooDeep inner = some (_, next) := rest
        obtain ⟨⟨states, trail⟩, same⟩ := restored skips
        exact ⟨⟨_, .bind (.move .enter enters) trail⟩, same.trans deeper⟩
    | true =>
        obtain ⟨found, final, inside, rest⟩ := bind_eq_some.1 rest
        obtain ⟨_, last, exits, ends⟩ := bind_eq_some.1 rest
        obtain ⟨⟨states, trail⟩, same⟩ := restored inside
        cases ends
        cases exits
        refine ⟨⟨_, .bind (.move .enter enters) (.bind trail (.bind (.move .exit rfl) (.pure _ _)))⟩, ?_⟩
        simp only [Parser.context, Context.mk.injEq] at same deeper ⊢
        simp [Builder.exit, same, deeper]

/-- The scope that is begun is left again, whatever was noted in it. -/
instance (change : Scope → Scope) {rule : ParseM Unit} [Restores rule] : Restores (within change rule) where
  restored ran := by
    obtain ⟨_, inner, begins, rest⟩ := bind_eq_some.1 ran
    obtain ⟨_, final, inside, ends⟩ := bind_eq_some.1 rest
    obtain ⟨⟨states, trail⟩, same⟩ := restored inside
    refine ⟨⟨_, .bind (.move (.beginScope change) begins) (.bind trail (.move .endScope ends))⟩, ?_⟩
    cases begins
    cases ends
    simp only [Parser.context, Context.mk.injEq, Scopes.push] at same
    simp [Parser.context, Scopes.pop, same]

/-! ## Blocks -/

@[instance]
theorem restores_skipBlockRound (depth : Nat) : Restores (skipBlockRound depth) := by
  unfold skipBlockRound
  refine .seq inferInstance fun kind? => ?_
  split <;> infer_instance

instance : Restores skipBlock := by
  unfold skipBlock
  infer_instance

instance : Restores atBlockEnd := by
  unfold atBlockEnd
  infer_instance

/-- The block and the level that are begun are ended again. -/
instance {statement : ParseM Unit} [Restores statement] : Restores (blockOf statement) where
  restored {parser _ next} ran := by
    obtain ⟨entered, inner, enters, rest⟩ := bind_eq_some.1 ran
    have deeper := Move.context_enter enters
    cases entered with
    | false =>
        have skips : skipBlock inner = some (_, next) := rest
        obtain ⟨⟨states, trail⟩, same⟩ := restored skips
        exact ⟨⟨_, .bind (.move .enter enters) trail⟩, same.trans deeper⟩
    | true =>
        obtain ⟨_, opened, begins, rest⟩ := bind_eq_some.1 rest
        obtain ⟨_, final, inside, rest⟩ := bind_eq_some.1 rest
        obtain ⟨_, closed, ends, exits⟩ := bind_eq_some.1 rest
        obtain ⟨⟨states, trail⟩, same⟩ := restored inside
        refine ⟨⟨_, .bind (.move .enter enters) (.bind (.move .beginBlock begins) (.bind trail
          (.bind (.move .endBlock ends) (.move .exit exits))))⟩, ?_⟩
        cases begins
        cases ends
        cases exits
        simp only [Parser.context, Context.mk.injEq] at same deeper ⊢
        simp [Builder.exit, same, deeper]

end StarlarkSyntax.Grammar
