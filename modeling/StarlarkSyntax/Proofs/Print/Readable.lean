import StarlarkSyntax.Proofs.Print.Chain
import StarlarkSyntax.Proofs.Print.Display
import StarlarkSyntax.Proofs.Print.Full
import StarlarkSyntax.Proofs.Print.Slice
/-!
# Reading expressions in their positions

Each position has a rule that reads expressions there (`ReadsAt`). An expression is `Readable` if the
rule of every position reads what is written for it there, and if it can begin a chain. It is enough
to know that for the positions that admit the expression without parentheses; and for an operation it
is enough to know it for its own level (`Readable.ofLevel`).
-/

set_option autoImplicit false

namespace StarlarkSyntax

open Layout (Piece)

/-! ## Shapes and levels in different positions -/

namespace Position

theorem admits_alone (expr : Expr) : alone.admits expr = true := by
  cases expr with
  | tuple elements => cases elements <;> rfl
  | binary operator => cases operator <;> rfl
  | _ => rfl

theorem entry_test (expr : Expr) : test.entry expr = 1 := by
  cases expr with
  | tuple elements => cases elements <;> rfl
  | _ => rfl

theorem entry_of_ne (expr : Expr) {position : Position} (other : position ≠ alone ∧ position ≠ test) :
    position.entry expr = 0 := by
  cases expr with
  | tuple elements => cases elements <;> simp [entry, other]
  | _ => simp [entry, other]

theorem admits_eq {expr : Expr} (plain : 2 ≤ expr.rank) (position : Position) :
    position.admits expr = decide (position.rank ≤ expr.rank) := by
  cases expr with
  | tuple elements =>
      cases elements with
      | nil => rfl
      | cons => exact absurd plain (show ¬2 ≤ 0 by decide)
  | lambda => exact absurd plain (show ¬2 ≤ 1 by decide)
  | _ => rfl

theorem entry_alone {expr : Expr} (noTuple : 1 ≤ expr.rank) : alone.entry expr = 1 := by
  cases expr with
  | tuple elements =>
      cases elements with
      | nil => rfl
      | cons => exact absurd noTuple (show ¬1 ≤ 0 by decide)
  | _ => rfl

end Position

theorem Tier.two_le_rank (level : Tier) : 2 ≤ level.rank := by
  cases level with
  | ladder level => cases level <;> decide
  | _ => decide

namespace Expr

variable {expr : Expr} {position position' : Position}

theorem nesting_of_admits (admits : position.admits expr = true) :
    expr.nesting position = position.entry expr + expr.depth position := by
  rw [nesting, Position.levels, if_pos admits]

theorem nesting_alone (expr : Expr) :
    expr.nesting .alone = Position.alone.entry expr + expr.depth .alone :=
  nesting_of_admits (Position.admits_alone expr)

theorem nesting_of_not_admits (other : position.admits expr = false) :
    expr.nesting position = position.entry expr + (1 + expr.nesting .alone) := by
  rw [nesting, Position.levels, if_neg (by rw [other]; exact Bool.false_ne_true), nesting_alone,
    Nat.add_assoc]

/-- Only tuples and lambdas look different in positions that admit them. -/
theorem inner_eq (plain : 2 ≤ expr.rank) (target : Bool) (position position' : Position) :
    expr.inner target position = expr.inner target position' := by
  cases expr with
  | tuple elements =>
      cases elements with
      | nil => rw [inner, inner]
      | cons => exact absurd plain (show ¬2 ≤ 0 by decide)
  | lambda | conditional => exact absurd plain (show ¬2 ≤ 1 by decide)
  | _ => rw [inner, inner]

theorem depth_eq (plain : 2 ≤ expr.rank) (position position' : Position) :
    expr.depth position = expr.depth position' := by
  cases expr with
  | tuple elements =>
      cases elements with
      | nil => rw [depth, depth]
      | cons => exact absurd plain (show ¬2 ≤ 0 by decide)
  | lambda | conditional => exact absurd plain (show ¬2 ≤ 1 by decide)
  | _ => rw [depth, depth]

/-- An expression is written and read in the same way in two positions, apart from the level that is
entered before it. -/
structure Same (expr : Expr) (position position' : Position) : Prop where
  shape : ∀ target, expr.shape target position = expr.shape target position'
  nesting : expr.nesting position + position'.entry expr =
    expr.nesting position' + position.entry expr

/-- In positions that enter no level, an expression takes as many levels. -/
theorem Same.nesting_eq (same : Same expr position position')
    (other : position ≠ .alone ∧ position ≠ .test) (other' : position' ≠ .alone ∧ position' ≠ .test) :
    expr.nesting position = expr.nesting position' := by
  have := same.nesting
  rw [Position.entry_of_ne expr other, Position.entry_of_ne expr other'] at this
  omega

theorem same_of_plain (plain : 2 ≤ expr.rank) (same : position.rank = position'.rank ∨
    position.rank ≤ expr.rank ∧ position'.rank ≤ expr.rank) : Same expr position position' := by
  have admits : position.admits expr = position'.admits expr := by
    rw [Position.admits_eq plain, Position.admits_eq plain, decide_eq_decide]
    omega
  have inner := inner_eq plain
  have depth := depth_eq plain position position'
  refine ⟨fun target => ?_, ?_⟩
  · cases is : position'.admits expr with
    | true => rw [shape_of_admits is, shape_of_admits (admits.trans is), inner target position]
    | false => rw [shape_of_not_admits is, shape_of_not_admits (admits.trans is)]
  · cases is : position'.admits expr with
    | true =>
        rw [nesting_of_admits is, nesting_of_admits (admits.trans is)]
        omega
    | false =>
        rw [nesting_of_not_admits is, nesting_of_not_admits (admits.trans is)]
        omega

theorem same_of_not_admits (other : position.admits expr = false)
    (other' : position'.admits expr = false) : Same expr position position' where
  shape := fun target => by rw [shape_of_not_admits other, shape_of_not_admits other']
  nesting := by
    rw [nesting_of_not_admits other, nesting_of_not_admits other']
    omega

/-- What is assigned to makes no difference to the tokens. -/
theorem leaves_eq (expr : Expr) (target target' : Bool) (position : Position) :
    (expr.shape target position).leaves = (expr.shape target' position).leaves := by
  induction expr using Expr.induction generalizing target target' position with
  | step expr ih =>
  have inner (position : Position) :
      (expr.inner target position).leaves = (expr.inner target' position).leaves := by
    have same (part : Expr) (mem : part ∈ expr.parts) (position : Position) :=
      ih part mem target target' position
    cases expr with
    | tuple elements =>
        cases elements with
        | nil => rw [inner, inner]
        | cons first others =>
            simp only [inner, Position.enclose_inner, Shape.leaves_node, Shape.leavesAll_cons]
            rw [same first (by simp [parts])]
            cases others with
            | nil => rfl
            | cons next others =>
                rw [if_neg (by rintro ⟨⟩), if_neg (by rintro ⟨⟩), Shape.leavesAll_flatMap_congr fun item mem => ?_]
                simp [same item (by simp [parts, mem])]
    | list elements =>
        simp only [inner, Position.enclose_inner, Shape.leaves_node, Shape.leavesAll_cons,
          Shape.leavesAll_append]
        rw [Shape.leavesAll_withCommas_congr fun element mem => ?_]
        exact same element mem _
    | call function arguments =>
        simp only [inner, Position.enclose_inner, Shape.leaves_node, Shape.leavesAll_cons]
        rw [ih function (by simp [parts]) _ (target' && function.isUnlinked)]
    | parenthesized part | listComprehension part | signed _ part | negation part =>
        simp only [inner, Position.enclose_inner, Shape.leaves_node, Shape.leavesAll_cons,
          Shape.leavesAll_append]
        rw [same part (by simp [parts])]
    | power left right | binary _ left right =>
        simp only [inner, Position.enclose_inner, Shape.leaves_node, Shape.leavesAll_cons,
          Shape.leavesAll_append]
        rw [same left (by simp [parts]), same right (by simp [parts])]
    | conditional value condition otherwise =>
        simp only [inner, Position.enclose_inner, Shape.leaves_node, Shape.leavesAll_cons]
        rw [same value (by simp [parts]), same condition (by simp [parts]),
          same otherwise (by simp [parts])]
    | _ => simp [inner]
  cases admits : position.admits expr with
  | true => rw [shape_of_admits admits, shape_of_admits admits, inner]
  | false => simp [shape_of_not_admits admits, inner]

end Expr

/-! ## The rules of positions -/

namespace Grammar

/-- The rule of a position reads the shape. Ranges and conditions are never assigned to, and what a
comprehension assigns to always is. -/
def ReadsAt (nested : Nested) (target : Bool) (levels : Nat) (shape : Shape) : Position → Prop
  | .alone => Reads (tuple nested target) levels shape (EndsItems 1)
  | .test => Reads (test nested target) levels shape (Looser 1)
  | .range => target = false → Reads (tupleOf nested.rangeItem) levels shape (EndsItems 2)
  | .rangeItem => target = false → Reads nested.rangeItem levels shape (Looser 2)
  | .condition => target = false → Reads (condition nested) levels shape (Looser 1)
  | .targets => target = true → ∀ ⦃lexed : Lexed⦄ (stage : Stage lexed) (left : List Piece),
    stage.rest = shape.leaves ++ left → EndsItems 6 left →
    stage.place.depth + levels ≤ Builder.maxDepth → Gives (targets nested) stage () [shape]
  | .operand level => Takes nested target levels shape level

/-- A rule that is followed one level deeper reads what it reads there. -/
theorem reads_nested {production : Production} {levels : Nat} {shape : Shape}
    {follows : List Piece → Prop}
    (reads : ∀ k, levels ≤ k → Reads (Grammar.production (nestedFor k) production) levels shape follows)
    {k : Nat} (le : levels + 1 ≤ k) : Reads (nestedFor k production) (levels + 1) shape follows := by
  obtain ⟨k, rfl⟩ := Nat.exists_eq_succ_of_ne_zero (show k ≠ 0 by omega)
  exact (reads k (by omega)).nest

end Grammar

open Grammar

/-- An expression is read in a position, if the rules may be nested deep enough. -/
def Expr.ReadIn (expr : Expr) (position : Position) : Prop :=
  ∀ k target, expr.nesting position ≤ k →
    ReadsAt (nestedFor k) target (expr.nesting position) (expr.shape target position) position

/-- An expression can begin a chain, if the rules may be nested deep enough. -/
def Expr.Linkable (expr : Expr) : Prop :=
  ∀ k, expr.nesting (.operand .primary) ≤ k → IsChain (nestedFor k)
    (expr.nesting (.operand .primary)) expr.isUnlinked expr.isUnsubscripted
    fun target => expr.shape target (.operand .primary)

structure Readable (expr : Expr) : Prop where
  readIn : ∀ position, expr.ReadIn position
  linkable : expr.Linkable

namespace Expr.ReadIn

variable {expr : Expr}

/-- The rule of a level reads an operand of the level. -/
theorem rule {level : Tier} (operand : expr.ReadIn (.operand level)) (noPower : level ≠ .power)
    {k : Nat} (target : Bool) (le : expr.nesting (.operand level) ≤ k) :
    Grammar.Reads (level.rule (nestedFor k) target) (expr.nesting (.operand level))
      (expr.shape target (.operand level)) (Looser level.rank) :=
  Takes.reads (show Takes _ _ _ _ level from operand k target le) noPower

theorem test (operand : expr.ReadIn (.operand (.ladder .disjunction)))
    (same : expr.Same .test (.operand (.ladder .disjunction))) : expr.ReadIn .test := by
  intro k target le
  have nesting := same.nesting
  rw [Position.entry_test, Position.entry_of_ne expr (by decide), Nat.add_zero] at nesting
  rw [nesting] at le ⊢
  rw [same.shape]
  refine reads_nested (fun k le => ?_) le
  exact (operand.rule nofun target le).choice.conditional (expr.starts target _)

theorem alone (test : expr.ReadIn .test) (same : expr.Same .alone .test)
    (noTuple : 1 ≤ expr.rank) : expr.ReadIn .alone := by
  intro k target le
  have nesting : expr.nesting .alone = expr.nesting .test := by
    have := same.nesting
    rw [Position.entry_test, Position.entry_alone noTuple] at this
    omega
  rw [nesting] at le ⊢
  rw [same.shape]
  exact Reads.tupleOf (test k target le)

theorem rangeItem (operand : expr.ReadIn (.operand (.ladder .disjunction)))
    (same : expr.Same .rangeItem (.operand (.ladder .disjunction))) : expr.ReadIn .rangeItem := by
  rintro k target le rfl
  rw [same.nesting_eq (by decide) (by decide)] at le ⊢
  rw [same.shape]
  exact (operand.rule nofun false le).rangeItem (expr.starts false _)

theorem range (item : expr.ReadIn .rangeItem) (same : expr.Same .range .rangeItem) :
    expr.ReadIn .range := by
  rintro k target le rfl
  rw [same.nesting_eq (by decide) (by decide)] at le ⊢
  rw [same.shape]
  exact Reads.tupleOf (item k false le rfl)

theorem condition (operand : expr.ReadIn (.operand (.ladder .disjunction)))
    (same : expr.Same .condition (.operand (.ladder .disjunction))) : expr.ReadIn .condition := by
  rintro k target le rfl
  rw [same.nesting_eq (by decide) (by decide)] at le ⊢
  rw [same.shape]
  exact ((operand.rule nofun false le).condition (expr.starts false _)).weaken
    (Nat.le_refl _) fun left looser => looser.mono (Nat.le_succ 1)

theorem targets (operand : expr.ReadIn (.operand (.ladder .bitOr)))
    (same : expr.Same .targets (.operand (.ladder .bitOr))) : expr.ReadIn .targets := by
  rintro k target le rfl
  rw [same.nesting_eq (by decide) (by decide)] at le ⊢
  rw [same.shape]
  intro lexed stage left rest ends deep
  have starts := (expr.starts true (.operand (.ladder .bitOr))).mono (show 1 ≤ 6 by decide)
  have reads : Grammar.Reads (starExpression (nestedFor k) true) _ _ _ :=
    (operand.rule nofun true le).starred starts rfl
  exact gives_targets_single reads rest ends deep

/-- An expression in parentheses can begin a chain. -/
theorem parenthesized (alone : expr.ReadIn .alone) {k : Nat} (le : expr.nesting .alone + 1 ≤ k) :
    IsChain (nestedFor k) (expr.nesting .alone + 1) true true fun target =>
      .node .parenthesizedExpression none [.ofKind lpar, expr.shape target .alone, .ofKind rpar] := by
  refine .primary ?_ fun target => reads_display (reads_nested (fun k le => ?_) le) rfl
  · simp only [Shape.leaves_node, Shape.leavesAll_cons, expr.leaves_eq true false]
  · exact (makes_parenthesized (alone k target le) (expr.starts target .alone)).reads

/-- Where an expression is not admitted, it is read in parentheses. -/
theorem operand_of_not_admits (alone : expr.ReadIn .alone) {level : Tier}
    (other : (Position.operand level).admits expr = false) : expr.ReadIn (.operand level) := by
  intro k target le
  have nesting := expr.nesting_of_not_admits other
  rw [Position.entry_of_ne expr (by simp), Nat.zero_add, Nat.add_comm] at nesting
  rw [nesting] at le ⊢
  rw [expr.shape_of_not_admits other]
  have chain := (parenthesized alone le).reads target
  rw [Expr.shape_of_admits (Position.admits_alone expr)] at chain
  exact takes_of_le level.rank_le (show Takes _ _ _ _ .primary from chain)
    (starts_of_ne (Nat.le_refl _) nofun)

/-- An operation is read by the rules of all looser levels. -/
theorem operand_of_le {level level' : Tier} (rank : expr.rank = level.rank)
    (base : ∀ k target, expr.depth .alone ≤ k →
      Takes (nestedFor k) target (expr.depth .alone) (expr.inner target .alone) level)
    (le : level'.rank ≤ level.rank) : expr.ReadIn (.operand level') := by
  have plain : 2 ≤ expr.rank := rank ▸ level.two_le_rank
  have admits {level' : Tier} (le : level'.rank ≤ level.rank) :
      (Position.operand level').admits expr = true := by
    rw [Position.admits_eq plain, decide_eq_true_iff, rank]
    exact le
  intro k target deep
  have nesting := expr.nesting_of_admits (admits le)
  rw [Position.entry_of_ne expr (by simp), Nat.zero_add,
    Expr.depth_eq plain (.operand level') .alone] at nesting
  rw [nesting] at deep ⊢
  rw [Expr.shape_of_admits (admits le), Expr.inner_eq plain target _ .alone]
  refine takes_of_le le (base k target deep) ?_
  have starts := expr.starts target (.operand level)
  rw [Expr.shape_of_admits (admits (Nat.le_refl _)), Expr.inner_eq plain target _ .alone] at starts
  exact starts

end Expr.ReadIn

/-- What is put in parentheses in a chain has no links of its own. -/
theorem Expr.isUnlinked_of_not_admits {expr : Expr}
    (other : (Position.operand .primary).admits expr = false) :
    expr.isUnlinked = true ∧ expr.isUnsubscripted = true := by
  cases expr with
  | dotted | call | subscript | slice => cases other
  | _ => exact ⟨rfl, rfl⟩

theorem Expr.linkable_of_not_admits {expr : Expr} (alone : expr.ReadIn .alone)
    (other : (Position.operand .primary).admits expr = false) : expr.Linkable := by
  intro k le
  obtain ⟨unlinked, unsubscripted⟩ := Expr.isUnlinked_of_not_admits other
  have nesting := expr.nesting_of_not_admits other
  rw [Position.entry_of_ne expr (by simp), Nat.zero_add, Nat.add_comm] at nesting
  rw [nesting] at le ⊢
  rw [unlinked, unsubscripted]
  have chain := alone.parenthesized le
  simp only [Expr.shape_of_admits (Position.admits_alone expr)] at chain
  simpa only [Expr.shape_of_not_admits other] using chain

namespace Readable

variable {expr : Expr}

/-- An expression that is neither a tuple nor a choice nor a lambda is read everywhere if it is read
beside operators. -/
theorem ofOperands (plain : 2 ≤ expr.rank) (operand : ∀ level, expr.ReadIn (.operand level))
    (linkable : expr.Linkable) : Readable expr := by
  have one : 1 ≤ expr.rank := Nat.le_of_succ_le plain
  have test := (operand (.ladder .disjunction)).test (Expr.same_of_plain plain (.inr ⟨one, plain⟩))
  have item := (operand (.ladder .disjunction)).rangeItem (Expr.same_of_plain plain (.inl rfl))
  refine ⟨fun position => ?_, linkable⟩
  cases position with
  | alone => exact test.alone (Expr.same_of_plain plain (.inl rfl)) one
  | test => exact test
  | range => exact item.range (Expr.same_of_plain plain (.inl rfl))
  | rangeItem => exact item
  | condition =>
      exact (operand (.ladder .disjunction)).condition (Expr.same_of_plain plain (.inl rfl))
  | targets => exact (operand (.ladder .bitOr)).targets (Expr.same_of_plain plain (.inl rfl))
  | operand level => exact operand level

/-- An operation is read everywhere if it is read by the rule of its own level. -/
theorem ofLevel {level : Tier} (rank : expr.rank = level.rank) (noPrimary : level ≠ .primary)
    (base : ∀ k target, expr.depth .alone ≤ k →
      Takes (nestedFor k) target (expr.depth .alone) (expr.inner target .alone) level) :
    Readable expr := by
  have plain : 2 ≤ expr.rank := rank ▸ level.two_le_rank
  have one : 1 ≤ expr.rank := Nat.le_of_succ_le plain
  have disjunction : expr.ReadIn (.operand (.ladder .disjunction)) :=
    .operand_of_le rank base level.two_le_rank
  have alone := (disjunction.test (Expr.same_of_plain plain (.inr ⟨one, plain⟩))).alone
    (Expr.same_of_plain plain (.inl rfl)) one
  have admits (level' : Tier) :
      (Position.operand level').admits expr = decide (level'.rank ≤ level.rank) := by
    rw [Position.admits_eq plain, rank]
    rfl
  refine ofOperands plain (fun level' => ?_) (Expr.linkable_of_not_admits alone ?_)
  · by_cases le : level'.rank ≤ level.rank
    · exact .operand_of_le rank base le
    · exact alone.operand_of_not_admits ((admits level').trans (decide_eq_false le))
  · refine (admits .primary).trans (decide_eq_false fun le => noPrimary ?_)
    exact Tier.rank_injective (Nat.le_antisymm level.rank_le le)

/-- What needs no parentheses anywhere is read everywhere if it can begin a chain. -/
theorem ofChain (rank : expr.rank = Tier.primary.rank)
    (chain : ∀ k, expr.depth .alone ≤ k → IsChain (nestedFor k) (expr.depth .alone)
      expr.isUnlinked expr.isUnsubscripted fun target => expr.inner target .alone) :
    Readable expr := by
  have plain : 2 ≤ expr.rank := rank ▸ Tier.primary.two_le_rank
  have admits : (Position.operand .primary).admits expr = true := by
    rw [Position.admits_eq plain, rank]
    rfl
  refine ofOperands plain (fun level => ?_) fun k le => ?_
  · exact .operand_of_le rank (fun k target deep => (chain k deep).reads target) level.rank_le
  · have nesting := expr.nesting_of_admits admits
    rw [Position.entry_of_ne expr (by simp), Nat.zero_add, Expr.depth_eq plain _ .alone] at nesting
    rw [nesting] at le ⊢
    simp only [Expr.shape_of_admits admits, Expr.inner_eq plain _ (.operand .primary) .alone]
    exact chain k le

end Readable
end StarlarkSyntax
