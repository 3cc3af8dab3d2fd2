import StarlarkSyntax.Proofs.Grammar.Letters
import StarlarkSyntax.Proofs.Grammar.Suffix
import StarlarkSyntax.Proofs.Print.Sound
/-!
# Where a look ahead for slices sees nothing

A look ahead for the colon of a slice counts brackets and lambdas, and knows of no tree. It passes over the
tokens of a complete expression as if they were not there, because each bracket in there is closed and each
lambda has a colon of its own (`Sealed`). What stands in brackets may have other colons, but its brackets
are closed as well (`Balanced`), so with the brackets around it, it is passed over too (`sealed_enclosed`).

The items of a slice have a colon that makes a slice just if the look ahead finds one
(`endsBrackets_slice`).
-/

set_option autoImplicit false

namespace StarlarkSyntax

open Layout (Piece)
open Grammar

/-! ## Brackets that are closed -/

theorem depthAfterAll?_cons (depth : Nat) (piece : Piece) (pieces : List Piece) :
    depthAfterAll? depth (piece :: pieces) =
      (depthAfter? depth piece.1).bind (depthAfterAll? · pieces) := rfl

/-- One more bracket that was open before stays so. -/
theorem depthAfterAll?_succ {depth after : Nat} {pieces : List Piece}
    (opens : depthAfterAll? depth pieces = some after) :
    depthAfterAll? (depth + 1) pieces = some (after + 1) := by
  induction pieces generalizing depth with
  | nil =>
      cases opens
      rfl
  | cons piece pieces ih =>
      rw [depthAfterAll?_cons] at opens ⊢
      obtain ⟨middle, first, opens⟩ := Option.bind_eq_some_iff.1 opens
      have step : depthAfter? (depth + 1) piece.1 = some (middle + 1) := by
        unfold depthAfter? at first ⊢
        split at first
        · cases first
          rfl
        · split at first
          · cases first
          · cases first
            rw [if_neg (Nat.succ_ne_zero depth)]
            simp only [Option.some.injEq]
            omega
        · cases first
          rfl
      rw [step, Option.bind_some]
      exact ih opens

/-- Inside brackets a look ahead for slices only counts brackets. -/
theorem hasSliceColon_inside {depth after : Nat} {pieces : List Piece}
    (opens : depthAfterAll? depth pieces = some after)
    (unbroken : ∀ piece ∈ pieces, piece.1 ≠ .statementBreak) (more : List Piece) (lambdas : Nat) :
    hasSliceColon (pieces ++ more) (depth + 1) lambdas = hasSliceColon more (after + 1) lambdas := by
  induction pieces generalizing depth with
  | nil =>
      cases opens
      rfl
  | cons piece pieces ih =>
      obtain ⟨goesOn, unbroken⟩ := List.forall_mem_cons.1 unbroken
      rw [depthAfterAll?_cons] at opens
      obtain ⟨middle, first, opens⟩ := Option.bind_eq_some_iff.1 opens
      have step : passColon (depth + 1) lambdas piece.1 = .ok (middle + 1, lambdas) := by
        unfold depthAfter? at first
        unfold passColon
        split at first
        · cases first
          rename_i is
          rw [is]
        · rename_i is
          split at first
          · cases first
          · cases first
            rw [is]
            simp only [Nat.succ_ne_zero, if_false]
            congr 2
            omega
        · cases first
          split <;> simp_all
      rw [List.cons_append, hasSliceColon_cons step]
      exact ih opens unbroken

namespace Shape

variable {made made' inside : List Shape} {kind : NodeKind} {piece : Piece} {owner : NodeKind}

/-- The brackets in some shapes are closed there, and no statement ends in them. -/
structure Balanced (made : List Shape) : Prop where
  closed : ∀ depth, depthAfterAll? depth (leavesAll made) = some depth
  unbroken : ∀ piece ∈ leavesAll made, piece.1 ≠ .statementBreak

/-- A look ahead for slices passes over some shapes, and rightly so. -/
structure Sealed (made : List Shape) : Prop extends Balanced made where
  passed : ∀ more depth lambdas,
    hasSliceColon (leavesAll made ++ more) depth lambdas = hasSliceColon more depth lambdas
  noColon : ∀ owner, ¬HoldsSliceColon owner made

/-- The tokens that a look ahead for slices does not count. -/
def isSteady : Kind → Bool
  | .opening _ | .closing _ | .colon | .reserved .lambdaWord | .statementBreak => false
  | _ => true

namespace Balanced

theorem nil : Balanced [] := ⟨fun _ => rfl, nofun⟩

theorem append (first : Balanced made) (second : Balanced made') : Balanced (made ++ made') where
  closed := fun depth => by
    rw [leavesAll_append, depthAfterAll?_append, first.closed, Option.bind_some, second.closed]
  unbroken := by
    rw [leavesAll_append]
    exact List.forall_mem_append.2 ⟨first.unbroken, second.unbroken⟩

theorem node (balanced : Balanced made) {message? : Option String} :
    Balanced [.node kind message? made] := by
  obtain ⟨closed, unbroken⟩ := balanced
  exact ⟨by simpa using closed, by simpa using unbroken⟩

theorem colon (body : List Char) : Balanced [.token (.colon, body)] :=
  ⟨fun _ => rfl, by simp⟩

end Balanced

/-- What holds a colon that makes a slice holds it in one of its parts. -/
theorem HoldsSliceColon.of_append (balanced : Balanced made)
    (holds : HoldsSliceColon owner (made ++ made')) :
    HoldsSliceColon owner made ∨ HoldsSliceColon owner made' := by
  obtain ⟨before, leaf, after, whole, here⟩ := holds
  rw [ownedAll_append] at whole
  rcases List.append_eq_append_iff.1 whole with ⟨between, rfl, second⟩ | ⟨between, first, second⟩
  · refine .inr ⟨between, leaf, after, second, here.colon, here.owner, ?_⟩
    have outside := here.outside
    rw [Matched, List.map_append, map_ownedAll, depthAfterAll?_append, balanced.closed] at outside
    exact outside
  · rcases List.cons_eq_append_iff.1 second with ⟨rfl, second⟩ | ⟨rest, rfl, -⟩
    · refine .inr ⟨[], leaf, after, second.symm, here.colon, here.owner, rfl⟩
    · exact .inl ⟨before, leaf, rest, first, here⟩

namespace Sealed

theorem nil : Sealed [] where
  toBalanced := .nil
  passed := fun _ _ _ => rfl
  noColon := by
    rintro owner ⟨before, leaf, after, whole, -⟩
    simp at whole

theorem append (first : Sealed made) (second : Sealed made') : Sealed (made ++ made') where
  toBalanced := first.toBalanced.append second.toBalanced
  passed := fun more depth lambdas => by
    rw [leavesAll_append, List.append_assoc, first.passed, second.passed]
  noColon := fun owner holds =>
    (holds.of_append first.toBalanced).elim (first.noColon owner) (second.noColon owner)

theorem node (is : Sealed made) {message? : Option String} : Sealed [.node kind message? made] where
  toBalanced := is.toBalanced.node
  passed := by simpa using is.passed
  noColon := fun owner holds => is.noColon kind (by simpa [HoldsSliceColon] using holds)

theorem token (steady : isSteady piece.1 = true) : Sealed [.token piece] where
  closed := fun depth => by
    show (depthAfter? depth piece.1).bind _ = _
    unfold depthAfter?
    split <;> simp_all [isSteady]
  unbroken := by
    rw [leavesAll_cons, leavesAll_nil]
    simp only [leaves_token, List.append_nil, List.mem_singleton, forall_eq]
    rintro is
    simp [is, isSteady] at steady
  passed := fun more depth lambdas => by
    refine hasSliceColon_cons ?_
    unfold passColon
    split <;> simp_all [isSteady]
  noColon := by
    rintro owner ⟨before, leaf, after, whole, here⟩
    have mem : leaf ∈ ownedAll owner [.token piece] := by simp [whole]
    obtain rfl : leaf = (owner, piece) := by simpa using mem
    have colon : piece.1 = .colon := here.colon
    simp [colon, isSteady] at steady

end Sealed

instance : Joining Balanced := ⟨.nil, .append⟩

instance : Joining Sealed := ⟨.nil, .append⟩

/-- A colon inside brackets makes no slice of what they stand in. -/
theorem not_holds_enclosed {delimiter delimiter' : Delimiter} {body body' : List Char}
    (balanced : Balanced inside) (owner : NodeKind) : ¬HoldsSliceColon owner
      (.token (.opening delimiter, body) :: inside ++ [.token (.closing delimiter', body')]) := by
  rintro ⟨before, leaf, after, whole, here⟩
  simp only [List.cons_append, ownedAll_cons, ownedAll_append, owned_token, ownedAll_nil,
    List.append_nil, List.nil_append] at whole
  rcases List.cons_eq_append_iff.1 whole with ⟨rfl, first⟩ | ⟨within, rfl, rest⟩
  · cases first
    cases here.colon
  rcases List.append_eq_append_iff.1 rest with ⟨between, rfl, last⟩ | ⟨between, inner, last⟩
  · obtain ⟨rfl, rfl, -⟩ | ⟨_, -, none⟩ :
        between = [] ∧ leaf = (owner, .closing delimiter', body') ∧ after = [] ∨
          ∃ more, between = (owner, .closing delimiter', body') :: more ∧ more ++ leaf :: after = [] := by
      cases between with
      | nil =>
          obtain ⟨rfl, rfl⟩ := List.cons.inj last
          exact .inl ⟨rfl, rfl, rfl⟩
      | cons other more =>
          obtain ⟨rfl, none⟩ := List.cons.inj last
          exact .inr ⟨more, rfl, none.symm⟩
    · cases here.colon
    · simp at none
  -- Where the brackets inside are matched, the one around them is still open.
  · have opens := balanced.closed 0
    rw [← map_ownedAll owner, inner, List.map_append, depthAfterAll?_append] at opens
    obtain ⟨depth, opens, -⟩ := Option.bind_eq_some_iff.1 opens
    have outside : depthAfterAll? 1 (within.map Prod.snd) = some 0 := here.outside
    rw [depthAfterAll?_succ opens] at outside
    cases outside

/-- With the brackets around it, everything that is balanced is passed over. -/
theorem sealed_enclosed {delimiter delimiter' : Delimiter} {body body' : List Char}
    (balanced : Balanced inside) :
    Sealed (.token (.opening delimiter, body) :: inside ++ [.token (.closing delimiter', body')]) where
  closed := fun depth => by
    rw [List.cons_append, leavesAll_cons, leavesAll_append]
    simp only [leaves_token, List.cons_append, List.nil_append, depthAfterAll?_cons, depthAfter?,
      Option.bind_some, depthAfterAll?_append, balanced.closed, leavesAll_cons, leavesAll_nil]
    rfl
  unbroken := by
    intro piece mem
    simp only [List.cons_append, leavesAll_cons, leavesAll_append, leavesAll_nil, leaves_token,
      List.nil_append, List.append_nil, List.mem_cons, List.mem_append, List.not_mem_nil, or_false] at mem
    rcases mem with rfl | mem | rfl
    · nofun
    · exact balanced.unbroken piece mem
    · nofun
  passed := fun more depth lambdas => by
    have opened : passColon depth lambdas (.opening delimiter) = .ok (depth + 1, lambdas) := rfl
    have closed : passColon (depth + 1) lambdas (.closing delimiter') = .ok (depth, lambdas) := rfl
    simp only [List.cons_append, leavesAll_cons, leavesAll_append, leavesAll_nil, leaves_token,
      List.nil_append, List.append_nil, List.append_assoc]
    rw [hasSliceColon_cons opened,
      hasSliceColon_inside (balanced.closed depth) balanced.unbroken, hasSliceColon_cons closed]
  noColon := not_holds_enclosed balanced

/-- One token holds no colon that makes a slice, unless it is one. -/
theorem not_holds_token (other : piece.1 = .colon → owner = .lambdaExpression) :
    ¬HoldsSliceColon owner [.token piece] := by
  rintro ⟨before, leaf, after, whole, here⟩
  have mem : leaf ∈ ownedAll owner [.token piece] := by simp [whole]
  obtain rfl : leaf = (owner, piece) := by simpa using mem
  exact here.owner (other here.colon)

/-- A lambda takes the colon after its parameters. -/
theorem sealed_lambda {word colon : List Char} (is : Sealed made) (is' : Sealed made')
    {message? : Option String} : Sealed [.node .lambdaExpression message?
      ([.token (.reserved .lambdaWord, word)] ++ made ++ [.token (.colon, colon)] ++ made')] := by
  have first : Balanced [.token (.reserved .lambdaWord, word)] := ⟨fun _ => rfl, by simp⟩
  have head := first.append is.toBalanced
  have balanced := (head.append (.colon colon)).append is'.toBalanced
  refine { toBalanced := balanced.node, passed := fun more depth lambdas => ?_, noColon := ?_ }
  · simp only [List.cons_append, leavesAll_cons, leaves_node, leavesAll_append, leavesAll_nil,
      leaves_token, List.nil_append, List.append_nil, List.append_assoc]
    by_cases outside : depth = 0
    · subst outside
      have first : passColon 0 lambdas (.reserved .lambdaWord) = .ok (0, lambdas + 1) := rfl
      have second : passColon 0 (lambdas + 1) .colon = .ok (0, lambdas) := rfl
      rw [hasSliceColon_cons first, is.passed, hasSliceColon_cons second, is'.passed]
    · have first : passColon depth lambdas (.reserved .lambdaWord) = .ok (depth, lambdas) := by
        simp [passColon, outside]
      have second : passColon depth lambdas .colon = .ok (depth, lambdas) := by simp [passColon, outside]
      rw [hasSliceColon_cons first, is.passed, hasSliceColon_cons second, is'.passed]
  · intro owner holds
    have holds : HoldsSliceColon .lambdaExpression
        (([.token (.reserved .lambdaWord, word)] ++ made) ++ ([.token (.colon, colon)] ++ made')) := by
      simpa [HoldsSliceColon] using holds
    rcases holds.of_append head with holds | holds
    · rcases holds.of_append first with holds | holds
      · exact not_holds_token (fun _ => rfl) holds
      · exact is.noColon _ holds
    · rcases holds.of_append (.colon colon) with holds | holds
      · exact not_holds_token (fun _ => rfl) holds
      · exact is'.noColon _ holds

/-! ## Slices -/

/-- Items of a slice, and commas: if none has a colon that makes a slice, then they are passed over. -/
structure SliceItems (inside : List Shape) : Prop extends Balanced inside where
  cases : (∀ owner, HasSliceItem owner inside) ∨ Sealed inside

theorem Sealed.sliceItems (is : Sealed made) : SliceItems made := ⟨is.toBalanced, .inr is⟩

theorem SliceItems.append (first : SliceItems made) (second : SliceItems made') :
    SliceItems (made ++ made') := by
  refine ⟨first.toBalanced.append second.toBalanced, ?_⟩
  rcases first.cases with has | is
  · refine .inl fun owner => ?_
    obtain ⟨before, front, colon, back, after, rfl, here⟩ := has owner
    exact ⟨before, front, colon, back, after ++ made', by simp, here⟩
  · refine second.cases.imp (fun has owner => ?_) is.append
    obtain ⟨before, front, colon, back, after, rfl, here⟩ := has owner
    refine ⟨made ++ before, front, colon, back, after, by simp, here.colon, here.owner, ?_⟩
    have outside := here.outside
    rw [List.map_append, map_ownedAll, map_ownedAll] at outside
    rw [Matched, List.map_append, map_ownedAll, map_ownedAll, leavesAll_append, List.append_assoc,
      depthAfterAll?_append, is.closed]
    exact outside

instance : Joining SliceItems := ⟨Sealed.nil.sliceItems, .append⟩

/-- An item with a colon, and what is balanced before it and after it. -/
theorem sliceItems_of_colon {front back : List Shape} (before : Balanced front) (body : List Char)
    (behind : Balanced back) : SliceItems [.node .sliceItem none (front ++ .token (.colon, body) :: back)] := by
  refine ⟨(before.append ((Balanced.colon body).append behind)).node, .inl fun owner => ?_⟩
  refine ⟨[], front, (.colon, body), back, [], rfl, rfl, nofun, ?_⟩
  rw [ownedAll_nil, List.nil_append, map_ownedAll]
  exact before.closed 0

/-- What follows the opening bracket of a subscript or a slice, up to the bracket that closes it. -/
def EndsBrackets (kind : NodeKind) (made : List Shape) : Prop :=
  ∃ inside body, made = inside ++ [.token (.closing .bracket, body)] ∧ Balanced inside ∧
    BracketsMake kind inside

/-- A slice holds what was seen when it was looked for. -/
theorem endsBrackets_slice {body : List Char} {rest : List Piece} (items : SliceItems inside)
    (seen : hasSliceColon (leavesAll inside ++ (.closing .bracket, body) :: rest) 0 0 = true) :
    EndsBrackets .sliceExpression (inside ++ [.token (.closing .bracket, body)]) := by
  have has : HasSliceItem .sliceExpression inside := by
    rcases items.cases with has | is
    · exact has _
    · rw [is.passed] at seen
      cases seen
  exact ⟨inside, body, rfl, items.toBalanced, .inl ⟨has.holds, rfl, has⟩⟩

theorem Sealed.endsBrackets (is : Sealed inside) (body : List Char) :
    EndsBrackets .subscriptionExpression (inside ++ [.token (.closing .bracket, body)]) :=
  ⟨inside, body, rfl, is.toBalanced, .inr ⟨is.noColon _, rfl⟩⟩

variable {base : Shape} {body : List Char}

theorem EndsBrackets.fits (ends : EndsBrackets kind made)
    (isNode : ∃ kind message? parts, base = .node kind message? parts) :
    FitsBrackets kind (base :: .token (.opening .bracket, body) :: made) := by
  obtain ⟨inside, closing, rfl, balanced, makes⟩ := ends
  exact ⟨base, _, inside, _, rfl, isNode, rfl, rfl, balanced.closed 0, makes⟩

end Shape
end StarlarkSyntax
