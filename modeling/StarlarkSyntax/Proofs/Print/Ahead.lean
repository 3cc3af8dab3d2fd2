import StarlarkSyntax.Proofs.Grammar.Reading
import StarlarkSyntax.Proofs.Print.Expr
/-!
# What a token begins or goes on with

An expression can be read as far as it is meant to go only if the next token does not go on with it.
`continuation` is the level of what two tokens go on with after an operand: an operand of a level is
followed by something that goes on with a looser one (`Looser`). On the other side, a token begins
only expressions of some levels (`beginning`), and `Starts` says so of the leaves of an expression.
-/

set_option autoImplicit false

namespace StarlarkSyntax

open Layout (Piece)

/-- The level of what two tokens go on with after an operand, or `0` if they go on with nothing. -/
def continuation (current? next? : Option Kind) : Nat :=
  match current? with
  | some .dot | some (.opening .parenthesis) | some (.opening .bracket) => 14
  | some (.operator .starStar) => 13
  | some (.operator .star) | some (.operator .slash) | some (.operator .slashSlash)
  | some (.operator .percent) => 11
  | some (.operator .plus) | some (.operator .minus) => 10
  | some (.operator .lessLess) | some (.operator .greaterGreater) => 9
  | some (.operator .ampersand) => 8
  | some (.operator .caret) => 7
  | some (.operator .pipe) => 6
  | some (.operator .equalEqual) | some (.operator .bangEqual) | some (.operator .less)
  | some (.operator .greater) | some (.operator .lessEqual) | some (.operator .greaterEqual)
  | some (.reserved .inWord) | some (.reserved .isWord) => 5
  | some (.reserved .notWord) => if next? = some (.reserved .inWord) then 5 else 0
  | some (.reserved .andWord) => 3
  | some (.reserved .orWord) => 2
  | some (.reserved .ifWord) => 1
  | _ => 0

/-- The tightest level of what a token begins, or `0` if it begins no expression. -/
def beginning : Kind → Nat
  | .identifier | .int | .float | .string | .bytes | .opening _ => 14
  | .operator .minus | .operator .plus | .operator .tilde => 12
  | .reserved .notWord => 4
  | .reserved .lambdaWord => 1
  | _ => 0

/-- Some tokens go on only with something looser. -/
def Looser (rank : Nat) (left : List Piece) : Prop :=
  continuation (nextKind left) (secondKind left) < rank

/-- Some tokens are those of an expression that is no looser. They do not begin with a name that is
given a value. -/
def Starts (rank : Nat) (leaves : List Piece) : Prop :=
  ∃ piece more, leaves = piece :: more ∧ rank ≤ beginning piece.1 ∧
    (piece.1 = .identifier → nextKind more ≠ some .equals)

/-- The next token begins no expression. -/
def Absent (left : List Piece) : Prop :=
  ∀ kind, nextKind left = some kind → beginning kind = 0 ∧ kind ≠ .operator .star

theorem Looser.mono {rank rank' : Nat} {left : List Piece} (looser : Looser rank left)
    (le : rank ≤ rank') : Looser rank' left :=
  Nat.lt_of_lt_of_le looser le

theorem Starts.mono {rank rank' : Nat} {leaves : List Piece} (starts : Starts rank leaves)
    (le : rank' ≤ rank) : Starts rank' leaves := by
  obtain ⟨piece, more, same, begins, named⟩ := starts
  exact ⟨piece, more, same, Nat.le_trans le begins, named⟩

/-- What follows an expression is no value for a name. -/
theorem Starts.append {rank : Nat} {leaves left : List Piece} (starts : Starts rank leaves)
    (other : nextKind left ≠ some .equals) : Starts rank (leaves ++ left) := by
  obtain ⟨piece, more, rfl, begins, named⟩ := starts
  refine ⟨piece, more ++ left, rfl, begins, fun name => ?_⟩
  cases more with
  | nil => exact other
  | cons => exact named name

/-- What the first token of an expression is not. -/
theorem Starts.ne {rank : Nat} {leaves : List Piece} (starts : Starts rank leaves) {kind : Kind}
    (looser : beginning kind < rank) (left : List Piece) :
    (nextKind (leaves ++ left) == some kind) = false := by
  obtain ⟨piece, more, rfl, begins, -⟩ := starts
  rw [List.cons_append, nextKind_cons, beq_eq_false_iff_ne]
  intro same
  rw [Option.some.inj same] at begins
  omega

theorem Starts.isEmpty {rank : Nat} {leaves : List Piece} (starts : Starts rank leaves)
    (left : List Piece) : (leaves ++ left).isEmpty = false := by
  obtain ⟨piece, more, rfl, -⟩ := starts
  rfl

theorem Starts.second {rank : Nat} {leaves : List Piece} (starts : Starts rank leaves)
    (name : nextKind leaves = some .identifier) : secondKind leaves ≠ some .equals := by
  obtain ⟨piece, more, rfl, -, named⟩ := starts
  exact named (Option.some.inj name)

/-- The first token of an expression is none of some others. -/
theorem Starts.any {rank : Nat} {leaves : List Piece} (starts : Starts rank leaves)
    {kinds : List Kind} (looser : ∀ kind ∈ kinds, beginning kind < rank) (left : List Piece) :
    (nextKind (leaves ++ left)).any kinds.contains = false := by
  obtain ⟨piece, more, rfl, begins, -⟩ := starts
  rw [List.cons_append, nextKind_cons, Option.any_some, ← Bool.not_eq_true, List.contains_iff_mem]
  intro mem
  have := looser piece.1 mem
  omega

theorem Absent.ne {left : List Piece} (absent : Absent left) {kind : Kind}
    (begins : 0 < beginning kind ∨ kind = .operator .star) :
    (nextKind left == some kind) = false := by
  rw [beq_eq_false_iff_ne]
  intro same
  have := absent kind same
  rcases begins with begins | rfl
  · omega
  · exact this.2 rfl

/-- If a looser operator comes, or none, there is no operator of a level. -/
theorem operatorLength?_eq_none {level : Precedence} {current? next? : Option Kind}
    (looser : continuation current? next? < (Tier.ladder level).rank) :
    level.operatorLength? current? next? = none := by
  cases current? with
  | none => rfl
  | some current =>
      cases current with
      | reserved word =>
          by_cases within : next? = some (.reserved .inWord) <;> cases word <;> cases level <;>
            simp_all [continuation, Precedence.operatorLength?, Precedence.operators,
              Precedence.comparisonLength?, Tier.rank]
      | operator symbol => cases symbol <;> cases level <;>
          simp_all [continuation, Precedence.operatorLength?, Precedence.operators,
            Precedence.comparisonLength?, Tier.rank]
      | _ => cases level <;> rfl

namespace Binary

/-- The tokens of an operator are found, unless the word `not` comes after `is`. -/
theorem operatorLength?_eq (operator : Binary) {next? : Option Kind}
    (other : operator = .isSame → next? ≠ some (.reserved .notWord)) :
    operator.level.operatorLength? operator.kinds.head? (operator.kinds[1]?.or next?) =
      some operator.kinds.length := by
  cases operator with
  | isSame =>
      show (if next? = some (.reserved .notWord) then some 2 else some 1) = some 1
      rw [if_neg (other rfl)]
  | _ => rfl

theorem kinds_cases (operator : Binary) :
    (∃ kind, operator.kinds = [kind]) ∨ ∃ kind next, operator.kinds = [kind, next] := by
  cases operator with
  | isNotIn | isNotSame => exact .inr ⟨_, _, rfl⟩
  | _ => exact .inl ⟨_, rfl⟩

/-- An operator goes on with its own level. -/
theorem looser (operator : Binary) (left : List Piece) :
    Looser ((Tier.ladder operator.level).rank + 1) (operator.kinds.map spelled ++ left) := by
  cases operator <;> exact Nat.lt_succ_self _

end Binary
end StarlarkSyntax
