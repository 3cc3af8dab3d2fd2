import StarlarkSyntax.Proofs.Grammar.Reading
import StarlarkSyntax.Proofs.Grammar.Sealed
/-!
# What is passed over where the limit of nesting is reached

No rule is followed deeper than the limit. What it would read is passed over instead, by a count of
the brackets that are open. Where the next token opens a bracket, that ends with the bracket that
closes it (`gives_skipTooDeep`), if it is closed in the statement and everything inside is: so the rule
around it finds the very token that it would find after what was passed over (`readsWhere_full`).
-/

set_option autoImplicit false

namespace StarlarkSyntax

open Layout (Piece)
open Stage (Inside Adds)

/-- Some tokens are a bracket that is opened, the one that closes it, and what stands inside, where all
brackets are closed and no statement ends. -/
inductive Bracketed : List Piece → Prop
  | intro {opening closing : Piece} {inside : List Shape} {delimiter delimiter' : Delimiter}
      (opens : opening.1 = .opening delimiter) (closes : closing.1 = .closing delimiter')
      (balanced : Shape.Balanced inside) : Bracketed (opening :: (Shape.leavesAll inside ++ [closing]))

/-- Inside a bracket that is open, the count of those that are open never has to stop at zero. -/
theorem depthAfter_succ {depth after : Nat} {kind : Kind} (opens : depthAfter? depth kind = some after) :
    Layout.depthAfter (depth + 1) kind = after + 1 := by
  cases kind with
  | opening => exact congrArg (· + 1) (Option.some.inj opens)
  | closing =>
      rw [depthAfter?, Option.ite_none_left_eq_some] at opens
      obtain ⟨some, after⟩ := opens
      have after := Option.some.inj after
      show depth + 1 - 1 = _
      omega
  | _ => exact congrArg (· + 1) (Option.some.inj opens)

namespace Grammar

variable {lexed : Lexed} {stage : Stage lexed} {left : List Piece} {made : List Shape} {answer : Bool}

/-! ## The count of brackets -/

theorem gives_skipRound {piece : Piece} (rest : stage.rest = piece :: left)
    (goesOn : piece.1 ≠ .statementBreak) (opened : Nat) :
    Gives (skipRound opened) stage
      (Layout.depthAfter opened piece.1 != 0, Layout.depthAfter opened piece.1) [.token piece] := by
  obtain ⟨kind, body⟩ := piece
  refine Reaches.bind (reaches_current? rest ?_)
  rw [nextKind_cons]
  cases kind with
  | statementBreak => contradiction
  | _ => exact Reaches.bind (reaches_advance rest fun _ adds _ => reaches_pure ⟨rfl, adds⟩)

/-- The rounds end with the bracket that closes what was open before the first of them. -/
theorem gives_skipRounds {inside : List Piece} {closing : Piece} {delimiter : Delimiter} {opened : Nat}
    (closed : depthAfterAll? opened inside = some 0)
    (goesOn : ∀ piece ∈ inside, piece.1 ≠ .statementBreak) (closes : closing.1 = .closing delimiter)
    (rest : stage.rest = inside ++ closing :: left) :
    Gives (loop skipRound (opened + 1)) stage 0 ((inside ++ [closing]).map .token) := by
  induction inside generalizing stage opened with
  | nil =>
      obtain rfl : opened = 0 := Option.some.inj closed
      have last := gives_skipRound rest (by rw [closes]; nofun) 1
      rw [closes] at last
      exact gives_loop_end last
  | cons piece inside ih =>
      obtain ⟨here, goesOn⟩ := List.forall_mem_cons.1 goesOn
      rw [depthAfterAll?_cons] at closed
      obtain ⟨after, opens, closed⟩ := Option.bind_eq_some_iff.1 closed
      have first := gives_skipRound rest here (opened + 1)
      rw [depthAfter_succ opens] at first
      exact gives_loop_next first fun after adds =>
        have adds : Adds stage [.token piece] after := adds
        ih closed goesOn (adds.left rest)

/-- What is passed over where a bracket is opened ends with the bracket that closes it. -/
theorem gives_skipTooDeep {pieces : List Piece} (bracketed : Bracketed pieces)
    (rest : stage.rest = pieces ++ left) :
    Gives skipTooDeep stage true [.node .error (some tooDeep) (pieces.map .token)] := by
  obtain @⟨opening, closing, inside, delimiter, delimiter', opens, closes, balanced⟩ := bracketed
  rw [List.cons_append, List.append_assoc] at rest
  refine Reaches.bind (reaches_current? rest ?_)
  rw [nextKind_cons, opens]
  refine Reaches.bind (reaches_mark fun junk marked inside same => ?_)
  have rest := same.trans rest
  have first := gives_skipRound rest (by rw [opens]; nofun) 0
  rw [opens] at first
  refine (gives_loop_next first fun middle adds =>
    gives_skipRounds (balanced.closed 0) balanced.unbroken closes (adds.left rest)).andThen
      fun after adds => ?_
  exact Reaches.bind (reaches_fault (inside.adds adds) fun _ adds _ => reaches_pure ⟨rfl, adds⟩)

/-! ## The limit -/

/-- At the limit no rule is followed. -/
theorem Gives.full {rule : ParseM Bool} (full : stage.place.depth = Builder.maxDepth)
    (gives : Gives skipTooDeep stage answer made) : Gives (Grammar.nest rule) stage answer made := by
  obtain ⟨_, after, ran, holds⟩ := gives
  refine ⟨_, after, ?_, holds⟩
  have deep : Builder.maxDepth ≤ stage.parser.builder.depth := Nat.le_of_eq full.symm
  have stays : withBuilder Builder.enter stage.parser = some (false, stage.parser) := by
    unfold withBuilder Builder.enter
    dsimp only
    rw [if_pos deep]
  unfold Grammar.nest
  rw [run_bind, stays, Option.bind_some]
  exact ran

/-- At the limit, brackets and what stands in them are read as an error. -/
theorem readsWhere_full {pieces : List Piece} (bracketed : Bracketed pieces) (rule : ParseM Bool) :
    ReadsWhere (·.depth = Builder.maxDepth) (nest rule)
      (.node .error (some tooDeep) (pieces.map .token)) fun _ => True := by
  intro lexed stage left rest _ full
  rw [Shape.leaves_node, Shape.leavesAll_map_token] at rest
  exact .full full (gives_skipTooDeep bracketed rest)

end Grammar
end StarlarkSyntax
