import StarlarkSyntax.Proofs.Recast.Rule
/-!
# Chains that are read as targets

As a target a chain is read on an assumption that a value does not make, and where a link shows that to be
wrong, everything since the start of the chain is taken back, exactly (`ends_link_of_refuted`). So either both
readings go on side by side, or the target is back where the chain began and less is assumed
(`pairs_chain_or`). What is assumed gets weaker each time, until it is what a value assumes.
-/

set_option autoImplicit false

namespace StarlarkSyntax.Grammar

/-- Does a token of this kind after a part of a chain show that the assumption was wrong? -/
def Assigned.refuted (assigned : Assigned) : Option Kind → Bool
  | some .dot => assigned = .first
  | some (.opening .bracket) => assigned ≠ .nothing
  | _ => false

theorem Assigned.of_refuted {assigned : Assigned} {kind? : Option Kind} (refuted : assigned.refuted kind? = true) :
    kind? = some .dot ∧ assigned = .first ∨ kind? = some lbracket ∧ assigned ≠ .nothing := by
  unfold Assigned.refuted at refuted
  split at refuted
  · exact .inl ⟨rfl, of_decide_eq_true refuted⟩
  · exact .inr ⟨rfl, of_decide_eq_true refuted⟩
  · contradiction

/-- Nothing shows that it was wrong to assume nothing. -/
theorem Assigned.refuted_nothing (kind? : Option Kind) : Assigned.nothing.refuted kind? = false := by
  unfold Assigned.refuted
  split <;> simp

/-- Two readings have come as far with a chain. -/
structure Chain.Same (parser parser' : Parser) (chain chain' : Chain) : Prop where
  markers : SamePlace parser parser' chain.marker chain'.marker
  retry : Chain.retry? chain' = chain.retry?

/-- If the chain has to be read again, less is assumed. -/
def Chain.Lowers (assigned : Assigned) (chain : Chain) : Prop :=
  ∀ weaker, chain.retry? = some weaker → weaker.rank < assigned.rank

/-- The chain has to be read again, and less is assumed. -/
def Chain.TakenBack (assigned : Assigned) (chain : Chain) : Prop :=
  ∃ weaker, chain.retry? = some weaker ∧ weaker.rank < assigned.rank

/-- Two readings of a chain, which the second one began over `start`, are in step, and their markers are around
all of it that there is so far. -/
structure Chain.Abreast (parser parser' : Parser) (level : Nat) (start : Builder) (chain chain' : Chain)
    (value target : Builder) : Prop where
  inStep : InStep parser parser' level value target
  same : chain.Same parser parser' chain'
  since : (parser'.over start).Since level (start.cursor + 1) (parser'.over target)
  opened : chain'.Open (parser'.over start) start.cursor (parser'.over target)
  begins : chain'.marker.start = start.events.size

section Links

variable {nested : Nested} {parser parser' : Parser} {level : Nat} {value target : Builder}
  {chain chain' : Chain} {assigned assigned' : Assigned}

/-- Two readings of a chain that began at some place have come on, or to its end. -/
def Chain.Linked (parser parser' : Parser) (level begin : Nat) (answer answer' : Bool × Chain)
    (value target : Builder) : Prop :=
  answer'.1 = answer.1 ∧ InStep parser parser' level value target ∧
    answer.2.Same parser parser' answer'.2 ∧ (answer.1 = true → answer'.2.marker.start = begin)

/-- A marker around what a chain has so far is put around one more link. -/
theorem pairs_wrapLink (around : Around parser parser' level chain.marker chain'.marker value target)
    {kind kind' : NodeKind} (kinds : (Completion.node kind).Recast (.node kind')) :
    Pairs (do let marker ← wrap chain.marker kind; pure (true, ({ marker } : Chain)))
      (do let marker ← wrap chain'.marker kind'; pure (true, ({ marker } : Chain)))
      parser parser' value target (Chain.Linked parser parser' level chain'.marker.start) := by
  refine (pairs_wrap around kinds).bind ?_
  rintro wrapper wrapper' value target ⟨begins, around⟩
  exact .pure ⟨rfl, around.inStep, ⟨around.markers, rfl⟩, fun _ => begins⟩

/-- Both readings read one more link, or end the chain there, unless the assumption of just one of them turns
out to be wrong. -/
theorem pairs_link (recasts : Recasting nested parser parser' level)
    (around : Around parser parser' level chain.marker chain'.marker value target)
    (retry : Chain.retry? chain' = chain.retry?)
    (assumed : assigned = assigned' ∨ assigned = .nothing ∧ assigned'.refuted target.current? = false) :
    Pairs (link nested assigned chain) (link nested assigned' chain') parser parser' value target
      (Chain.Linked parser parser' level chain'.marker.start) := by
  have inStep := around.inStep
  have taken (weaker : Assigned) :
      Pairs (do rollback chain.marker; pure (false, { chain with retry? := some weaker }))
        (do rollback chain'.marker; pure (false, { chain' with retry? := some weaker }))
        parser parser' value target (Chain.Linked parser parser' level chain'.marker.start) :=
    (recasts_rollback around.markers).continue_with inStep fun _ _ _ inStep =>
      .pure ⟨rfl, inStep, ⟨around.markers, rfl⟩, nofun⟩
  rw [inStep.current?] at assumed
  have both : assigned'.refuted value.current? = assigned.refuted value.current? := by
    obtain rfl | ⟨rfl, kept⟩ := assumed
    · rfl
    · rw [kept, Assigned.refuted_nothing]
  refine .look _ inStep.current? ?_
  split <;> rename_i here
  · have first : assigned' = .first ↔ assigned = .first := by simpa [here, Assigned.refuted] using both
    have last (more : Bool) : (decide (assigned = .last) && !more) ≤ (decide (assigned' = .last) && !more) := by
      obtain rfl | ⟨rfl, -⟩ := assumed
      · exact Bool.le_refl _
      · exact Bool.false_le _
    refine .ite first (fun _ => taken .last) fun _ => ?_
    refine recasts_advance.within keeps_advance around fun _ value target around => ?_
    refine (recasts_expect _ _).within (finds_expect _ _).keeps around fun _ value target around => ?_
    refine .look _ (around.inStep.isAtAny _) ?_
    exact pairs_wrapLink around (nameKind_recast (last _))
  · refine ((recasts.recasts .arguments value target inStep).with_ends
      (recasts.follows.arguments.size (since_over inStep) (inStep.current?.trans here))).bind ?_
    rintro _ _ value target ⟨⟨-, inStep⟩, -, grown⟩
    exact pairs_wrapLink ⟨inStep, around.markers, Nat.lt_of_lt_of_le around.begun grown⟩ (.same _)
  · have nothing : assigned' = .nothing ↔ assigned = .nothing := by
      simpa [here, Assigned.refuted] using both
    refine .ite nothing (fun _ => ?_) fun _ => taken .nothing
    refine recasts_advance.within keeps_advance around fun _ value target around => ?_
    refine (recasts_subscript recasts).within (keeps_subscript recasts.follows) around fun _ value target around => ?_
    exact pairs_wrapLink around (.same _)
  · refine (recasts_drop around.markers).continue_with inStep fun _ _ _ inStep => ?_
    exact .pure ⟨rfl, inStep, ⟨around.markers, retry⟩, nofun⟩

/-- The readings are still in step after a link that both read, and after the last one less is assumed than
before. -/
theorem Chain.Abreast.link (recasts : Recasting nested parser parser' level) {start : Builder}
    (abreast : chain.Abreast parser parser' level start chain' value target)
    (assumed : assigned = assigned' ∨ assigned = .nothing ∧ assigned'.refuted target.current? = false) :
    Pairs (Grammar.link nested assigned chain) (Grammar.link nested assigned' chain') parser parser' value target
      fun answer answer' value target => answer'.1 = answer.1 ∧
        if answer.1 then answer.2.Abreast parser parser' level start answer'.2 value target
        else InStep parser parser' level value target ∧ answer.2.Same parser parser' answer'.2 ∧
          answer.2.Lowers assigned' := by
  have around : Around parser parser' level chain.marker chain'.marker value target :=
    ⟨abreast.inStep, abreast.same.markers, abreast.opened.inside⟩
  refine ((pairs_link recasts around abreast.same.retry assumed).with_ends
    (ends_link recasts.follows (Nat.le_refl _) abreast.since abreast.opened)).mono ?_
  rintro ⟨_, chain⟩ ⟨goOn, chain'⟩ value target ⟨⟨rfl, inStep, same, begins⟩, holds⟩
  refine ⟨rfl, ?_⟩
  cases goOn with
  | true => exact ⟨inStep, same, holds.1.lower, holds.2, (begins rfl).trans abreast.begins⟩
  | false =>
      refine ⟨inStep, same, fun weaker retry => ?_⟩
      have ended : chain'.Ended _ _ _ assigned' _ := holds
      rw [Chain.Ended, same.retry.trans retry] at ended
      exact ended.2.2

/-- Where the assumption is wrong, everything is as it was before the chain, and less is assumed. -/
theorem ends_link_of_refuted {start : Builder}
    (abreast : chain.Abreast parser parser' level start chain' value target)
    (refuted : assigned.refuted target.current? = true) :
    Ends (link nested assigned chain') (parser'.over target) fun answer next => answer.1 = false ∧
      next = parser'.over start ∧ answer.2.TakenBack assigned := by
  have back : target.rollback chain'.marker = start := by
    have inside := abreast.opened.made.inside
    rw [abreast.opened.began] at inside
    rw [Builder.rollback, abreast.begins, abreast.opened.began]
    exact abreast.since.builder.rollbackTo_eq inside
  have taken (weaker : Assigned) (lower : weaker.rank < assigned.rank) :
      Ends (do rollback chain'.marker; pure (false, { chain' with retry? := some weaker })) (parser'.over target)
        fun answer next => answer.1 = false ∧ next = parser'.over start ∧ answer.2.TakenBack assigned :=
    ⟨_, _, rfl, rfl, congrArg parser'.over back, weaker, rfl, lower⟩
  refine ends_look ?_
  obtain ⟨here, first⟩ | ⟨here, something⟩ := Assigned.of_refuted refuted
  · rw [show (parser'.over target).builder.current? = some .dot from here]
    dsimp only
    rw [if_pos first]
    exact taken .last (first ▸ Nat.lt_succ_self 1)
  · rw [show (parser'.over target).builder.current? = some lbracket from here]
    dsimp only
    rw [if_neg something]
    refine taken .nothing ?_
    cases assigned with
    | nothing => exact absurd rfl something
    | first | last => simp [Assigned.rank]

/-- The links are read by both readings, or the target is taken back to where the chain began. What is assumed
of a value is the same, or nothing. -/
theorem pairs_links_or (recasts : Recasting nested parser parser' level)
    (assumed : assigned = assigned' ∨ assigned = .nothing) {start : Builder}
    (abreast : chain.Abreast parser parser' level start chain' value target) :
    Pairs (loop (link nested assigned) chain) (loop (link nested assigned') chain') parser parser' value target
      (fun chain chain' value target => InStep parser parser' level value target ∧
        chain.Same parser parser' chain' ∧ chain.Lowers assigned') ∨
    Ends (loop (link nested assigned') chain') (parser'.over target) fun chain next => assigned = .nothing ∧
      next = parser'.over start ∧ chain.TakenBack assigned' := by
  refine Pairs.loop_or (Chain.Abreast parser parser' level start) _ _
    (fun chain chain' value target abreast => ?_) abreast
  cases wrong : assigned'.refuted target.current? with
  | false => exact .inl (abreast.link recasts (assumed.imp_right fun nothing => ⟨nothing, wrong⟩))
  | true =>
      refine assumed.elim (fun same => .inl (abreast.link recasts (.inl same))) fun nothing => .inr ?_
      exact (ends_link_of_refuted abreast wrong).mono fun _ _ back => ⟨back.1, nothing, back.2⟩

theorem pairs_chain_or (recasts : Recasting nested parser parser' level)
    (inStep : InStep parser parser' level value target) (assumed : assigned = assigned' ∨ assigned = .nothing) :
    Pairs (Grammar.chain nested assigned) (Grammar.chain nested assigned') parser parser' value target
      (fun ended ended' value target => ended' = ended ∧ InStep parser parser' level value target ∧
        ∀ weaker, ended = .retry weaker → weaker.rank < assigned'.rank) ∨
    Ends (Grammar.chain nested assigned') (parser'.over target) fun ended next => assigned = .nothing ∧
      next = parser'.over target ∧ ∃ weaker, ended = .retry weaker ∧ weaker.rank < assigned'.rank := by
  have le : decide (assigned = .first) ≤ decide (assigned' = .first) := by
    obtain rfl | rfl := assumed
    · exact Bool.le_refl _
    · exact Bool.false_le _
  have leads : Leads level startsPrimary (primary nested (assigned' = .first)) :=
    ⟨fun _ start => passes_primary recasts.follows _ start, misses_primary _⟩
  refine (pairs_mark inStep).bind_or ?_
  rintro marker _ value' _ ⟨rfl, rfl, around⟩
  have markers := around.markers
  have marked := around.inStep
  have since := since_over inStep
  have since' : (parser'.over target).Since level target.cursor (parser'.over target.mark.2) :=
    since.change since.builder.mark since.reached
  refine ((recasts_primary recasts le value' _ marked).with_ends
    (ends_later Bool.toNat since' (leads.finds _ _ _ (since_over marked)))).bind_or ?_
  rintro _ found value' target' ⟨⟨rfl, inStep'⟩, since', grown⟩
  cases found with
  | false =>
      refine .inl ((recasts_drop markers).continue_with inStep' fun _ _ _ inStep => ?_)
      exact .pure ⟨rfl, inStep, nofun⟩
  | true =>
      have begun : target.mark.1.start < target'.events.size := Nat.lt_of_lt_of_le around.begun grown
      have abreast : Chain.Abreast parser parser' level target { marker } { marker := target.mark.1 } value' target' :=
        ⟨inStep', ⟨markers, rfl⟩, since',
          ⟨⟨Nat.le_refl _, Nat.le_refl _, since.builder.inside, Nat.le_refl _⟩, begun, rfl, rfl⟩, rfl⟩
      refine (pairs_links_or recasts assumed abreast).imp (fun pairs => pairs.bind ?_) fun ends => ends.bind ?_
      · rintro ⟨_, _⟩ ⟨_, retry?⟩ value' target' ⟨inStep, ⟨_, rfl⟩, lowers⟩
        cases retry? with
        | none => exact .pure ⟨rfl, inStep, nofun⟩
        | some assigned =>
            refine .pure ⟨rfl, inStep, ?_⟩
            rintro _ ⟨⟩
            exact lowers _ rfl
      · rintro ⟨_, _⟩ _ ⟨nothing, rfl, weaker, rfl, lower⟩
        exact .pure ⟨nothing, rfl, weaker, rfl, lower⟩

end Links

section

variable {nested : Nested} {parser parser' : Parser} {level : Nat}

/-- Chains are recast whatever is assumed about a target, if nothing is about a value. The induction is on how
much the target assumes. -/
theorem recasts_chainFrom (recasts : Recasting nested parser parser' level) {assigned assigned' : Assigned}
    (assumed : assigned = assigned' ∨ assigned = .nothing) :
    Recasts parser parser' level (nested.chainFrom assigned) (nested.chainFrom assigned') := by
  intro value target inStep
  obtain pairs | ⟨_, _, ran, nothing, rfl, weaker, rfl, lower⟩ := pairs_chain_or recasts inStep assumed
  · rw [Nested.chainFrom, Nested.chainFrom.eq_1 nested assigned']
    refine pairs.bind ?_
    rintro _ ended value target ⟨rfl, inStep, lower⟩
    cases ended with
    | missing | found => exact .pure ⟨rfl, inStep⟩
    | retry weaker =>
        have lower := lower weaker rfl
        exact recasts_chainFrom recasts (.inl rfl) value target inStep
  · have retried : nested.chainFrom assigned' (parser'.over target) =
        nested.chainFrom weaker (parser'.over target) := by
      conv => lhs; rw [Nested.chainFrom]
      exact congrArg (Option.bind · _) ran
    intro answer next ran'
    rw [Answers, retried]
    exact recasts_chainFrom recasts (.inr nothing) value target inStep answer next ran'
termination_by assigned'.rank

theorem recasts_member (recasts : Recasting nested parser parser' level) {target target' : Bool}
    (le : target ≤ target') : Recasts parser parser' level (member nested target) (member nested target') := by
  refine recasts_chainFrom recasts ?_
  cases target
  · exact .inr rfl
  · cases le rfl
    exact .inl rfl

end

end StarlarkSyntax.Grammar
