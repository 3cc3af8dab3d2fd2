import StarlarkSyntax.Proofs.Print.Argument
import StarlarkSyntax.Proofs.Print.Ladder
/-!
# Reading full expressions

Full expressions are operations, choices and lambdas; the items of a range and the conditions of a
comprehension are no choices. Where no expression begins, none of the rules finds anything.
-/

set_option autoImplicit false

namespace StarlarkSyntax

open Layout (Piece)
open Stage (Inside Adds)

namespace Grammar

variable {nested : Nested} {target : Bool} {levels levels' : Nat} {shape shape' : Shape}
  {holds : Place → Prop}

/-! ## Where no expression begins -/

theorem declines_primary : Declines (primary nested target) 0 Absent := by
  intro lexed stage absent _
  refine Reaches.bind (reaches_current? rfl ?_)
  rw [Absent] at absent
  generalize nextKind stage.rest = current? at absent ⊢
  cases current? with
  | none => exact gives_pure false stage
  | some kind =>
      have begins := (absent kind rfl).1
      cases kind with
      | identifier | int | float | string | bytes | opening => cases begins
      | _ => exact gives_pure false stage

theorem declines_member : Declines (member nested target) 0 Absent := by
  intro lexed stage absent deep
  rw [member, Nested.chainFrom]
  refine Reaches.bind (Reaches.bind (reaches_mark fun marker marked inside same => ?_))
  refine declines_primary.bind same absent (by rw [inside.later.place]; exact deep)
    fun after adds _ => ?_
  refine Reaches.bind (reaches_drop (inside.adds adds) fun dropped adds _ => ?_)
  exact reaches_pure (reaches_pure ⟨rfl, adds⟩)

theorem declines_power : Declines (power nested target) 0 Absent := by
  intro lexed stage absent deep
  refine Reaches.bind (reaches_mark fun marker marked inside same => ?_)
  refine declines_member.bind same absent (by rw [inside.later.place]; exact deep)
    fun after adds _ => ?_
  exact Reaches.bind (reaches_drop (inside.adds adds) fun _ adds _ => reaches_pure ⟨rfl, adds⟩)

theorem declines_unary : Declines (unary nested target) 0 Absent := by
  intro lexed stage absent deep
  refine Reaches.bind (reaches_isAtAny rfl (show _ = false from ?_) (declines_power stage absent deep))
  rw [Absent] at absent
  cases next : nextKind stage.rest with
  | none => rfl
  | some kind =>
      rw [Option.any_some, ← Bool.not_eq_true, List.contains_iff_mem]
      intro mem
      have begins := (absent kind next).1
      revert begins
      exact (show ∀ kind ∈ signs, beginning kind ≠ 0 by decide) kind mem

variable {left right : ParseM Bool}

theorem Declines.leftAssociative (declines : Declines left levels Absent) (level : Precedence) :
    Declines (leftAssociative level left right) levels Absent := by
  intro lexed stage absent deep
  refine Reaches.bind (reaches_mark fun marker marked inside same => ?_)
  refine declines.bind same absent (by rw [inside.later.place]; exact deep) fun after adds _ => ?_
  exact Reaches.bind (reaches_drop (inside.adds adds) fun _ adds _ => reaches_pure ⟨rfl, adds⟩)

theorem declines_bitOr : Declines (bitOr nested target) 0 Absent :=
  declines_unary.leftAssociative .multiplicative |>.leftAssociative .additive
    |>.leftAssociative .shift |>.leftAssociative .bitAnd |>.leftAssociative .bitXor
    |>.leftAssociative .bitOr

theorem declines_starExpression : Declines (starExpression nested target) 0 Absent :=
  fun _ stage absent deep =>
    Reaches.bind (reaches_isAt rfl (absent.ne (.inr rfl)) (declines_bitOr stage absent deep))

theorem declines_negation : Declines (negation nested target) 0 Absent :=
  fun _ stage absent deep =>
    Reaches.bind (reaches_isAt rfl (absent.ne (.inl (by decide)))
      (declines_starExpression.leftAssociative .comparison stage absent deep))

theorem declines_operation : Declines (operation nested target) 0 Absent :=
  declines_negation.leftAssociative .conjunction |>.leftAssociative .disjunction

theorem declines_conditional : Declines (conditional nested target) 0 Absent := by
  intro lexed stage absent deep
  refine Reaches.bind (reaches_isAt rfl (absent.ne (.inl (by decide))) ?_)
  refine Reaches.bind (reaches_mark fun expression marked inside same => ?_)
  refine declines_operation.bind same absent (by rw [inside.later.place]; exact deep)
    fun after adds _ => ?_
  exact Reaches.bind (reaches_drop (inside.adds adds) fun _ adds _ => reaches_pure ⟨rfl, adds⟩)

theorem declines_rangeItem : Declines nested.rangeItem 0 Absent := by
  intro lexed stage absent deep
  rw [rangeItem_eq]
  exact Reaches.bind (reaches_isAt rfl (absent.ne (.inl (by decide)))
    (declines_operation stage absent deep))

/-! ## Choices -/

/-- An operation that no `if` follows. -/
theorem ReadsWhere.choice (reads : ReadsWhere holds (operation nested target) shape (Looser 2)) :
    ReadsWhere holds (Grammar.choice nested target) shape (Looser 1) := by
  intro lexed stage left rest looser here
  refine Reaches.bind (reaches_mark fun expression marked inside same => ?_)
  refine reads.bind (same.trans rest) (looser.mono (Nat.le_succ 1))
    (by rw [inside.later.place]; exact here) fun after adds rest => ?_
  have noIf : (nextKind left == some (.reserved .ifWord)) = false := by
    rw [beq_eq_false_iff_ne]
    intro next
    rw [Looser, next] at looser
    exact Nat.lt_irrefl _ looser
  refine Reaches.bind (reaches_isAt rest noIf ?_)
  exact Reaches.bind (reaches_drop (inside.adds adds) fun _ adds _ => reaches_pure ⟨rfl, adds⟩)

theorem Reads.choice (reads : Reads (operation nested target) levels shape (Looser 2)) :
    Reads (choice nested target) levels shape (Looser 1) :=
  reads_iff.2 (reads_iff.1 reads).choice

theorem reads_choice {levels'' : Nat} {shape'' : Shape}
    (value : Reads (operation nested target) levels shape (Looser 2))
    (condition : Reads (operation nested target) levels' shape' (Looser 2))
    (otherwise : Reads (test nested target) levels'' shape'' (Looser 1)) :
    Reads (choice nested target) (max levels (max levels' levels''))
      (.node .conditionalExpression none [shape, .ofKind (.reserved .ifWord), shape',
        .ofKind (.reserved .elseWord), shape'']) (Looser 1) := by
  intro lexed stage left rest looser deep
  simp only [Shape.leaves_node, Shape.leavesAll_cons, Shape.leavesAll_nil, Shape.leaves_ofKind,
    List.append_nil, List.append_assoc, List.cons_append, List.nil_append] at rest
  refine Reaches.bind (reaches_mark fun expression marked inside same => ?_)
  refine value.bind (same.trans rest) (Nat.lt_succ_self 1) (by rw [inside.later.place]; omega)
    fun valued adds rest => ?_
  have inside := inside.adds adds
  refine Reaches.bind (reaches_isAt rest rfl ?_)
  refine Reaches.bind (reaches_mark fun chosen opened inside' same => ?_)
  refine Reaches.bind (reaches_advance (same.trans rest) fun word adds rest => ?_)
  have inside' := inside'.adds adds
  have place := inside'.later.place.trans inside.later.place
  refine condition.bind rest Nat.two_pos (by rw [place]; omega) fun conditioned adds rest => ?_
  have inside' := inside'.adds adds
  have place := inside'.later.place.trans inside.later.place
  refine Reaches.bind (Reaches.bind (reaches_isAt rest rfl (reaches_pure ?_)))
  refine Reaches.bind (reaches_matches rest rfl fun word adds rest => ?_)
  have inside' := inside'.adds adds
  have place := inside'.later.place.trans inside.later.place
  refine otherwise.require rest looser (by rw [place]; omega) fun after adds _ => ?_
  have inside' := inside'.adds adds
  refine Reaches.bind (reaches_drop inside' fun dropped adds _ => ?_)
  refine Reaches.bind (reaches_done (inside.adds adds) fun made adds _ => ?_)
  exact reaches_pure ⟨rfl, by simpa [Shape.ofKind] using adds⟩

/-! ## Full expressions -/

/-- What does not begin with the word `lambda` is a choice. -/
theorem ReadsWhere.conditional
    (reads : ReadsWhere holds (Grammar.choice nested target) shape (Looser 1))
    (starts : Starts 2 shape.leaves) :
    ReadsWhere holds (Grammar.conditional nested target) shape (Looser 1) :=
  fun _ stage left rest looser here =>
    Reaches.bind (reaches_isAt rest (starts.ne (by decide) left) (reads stage left rest looser here))

theorem Reads.conditional (reads : Reads (Grammar.choice nested target) levels shape (Looser 1))
    (starts : Starts 2 shape.leaves) :
    Reads (conditional nested target) levels shape (Looser 1) :=
  reads_iff.2 ((reads_iff.1 reads).conditional starts)

variable {shapes : List Shape}

theorem reads_conditional_lambda
    (reads : Reads (lambda nested (test nested false)) levels
      (.node .lambdaExpression none (.ofKind (.reserved .lambdaWord) :: shapes)) (Looser 1)) :
    Reads (conditional nested target) levels
      (.node .lambdaExpression none (.ofKind (.reserved .lambdaWord) :: shapes)) (Looser 1) :=
  fun _ stage left rest looser deep =>
    Reaches.bind (reaches_isAt rest rfl (reads stage left rest looser deep))

/-! ## Ranges and conditions -/

theorem Reads.rangeItem (reads : Reads (operation nested false) levels shape (Looser 2))
    (starts : Starts 2 shape.leaves) : Reads nested.rangeItem levels shape (Looser 2) := by
  rw [rangeItem_eq]
  exact fun _ stage left rest looser deep =>
    Reaches.bind (reaches_isAt rest (starts.ne (by decide) left) (reads stage left rest looser deep))

theorem reads_rangeItem_lambda
    (reads : Reads (lambda nested nested.rangeItem) levels
      (.node .lambdaExpression none (.ofKind (.reserved .lambdaWord) :: shapes)) (Looser 2)) :
    Reads nested.rangeItem levels
      (.node .lambdaExpression none (.ofKind (.reserved .lambdaWord) :: shapes)) (Looser 2) := by
  rw [rangeItem_eq]
  exact fun _ stage left rest looser deep =>
    Reaches.bind (reaches_isAt rest rfl (reads stage left rest looser deep))

theorem Reads.condition {rank : Nat}
    (reads : Reads (operation nested false) levels shape (Looser rank))
    (starts : Starts 2 shape.leaves) : Reads (condition nested) levels shape (Looser rank) :=
  fun _ stage left rest looser deep =>
    Reaches.bind (reaches_isAt rest (starts.ne (by decide) left) (reads stage left rest looser deep))

theorem reads_condition_lambda
    (reads : Reads (lambda nested (test nested false)) levels
      (.node .lambdaExpression none (.ofKind (.reserved .lambdaWord) :: shapes)) (Looser 1)) :
    Reads (condition nested) levels
      (.node .lambdaExpression none (.ofKind (.reserved .lambdaWord) :: shapes)) (Looser 1) :=
  fun _ stage left rest looser deep =>
    Reaches.bind (reaches_isAt rest rfl (reads stage left rest looser deep))

end Grammar
end StarlarkSyntax
