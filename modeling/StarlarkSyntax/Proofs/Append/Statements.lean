import StarlarkSyntax.Proofs.Print.RoundTrip
import StarlarkSyntax.Proofs.Twin.File
/-!
# Statements up to a border

The statements of a file are read one after the other, so reading them goes on from wherever a statement
has ended (`statements_break`, `statements_here`). In two texts with the same whole lines it gets to the
border between these and the tails in both of them (`exists_border`).
-/

set_option autoImplicit false

namespace StarlarkSyntax.Grammar

open Layout (Piece)
open Twin Shape
open Stage (Adds Inside)

/-! ## One statement after another -/

section

variable {lexed : Lexed} {stage after : Stage lexed} {left : List Piece}

theorem repeatWhile_eq (rule : ParseM Bool) :
    repeatWhile rule = (do if ← rule then repeatWhile rule else pure ()) := by
  show loop _ () = _
  rw [loop_eq]
  simp only [bind_assoc, pure_bind]
  rfl

theorem statements_more (goesOn : stage.rest ≠ []) :
    statements stage.parser = (statement >>= fun _ => statements) stage.parser := by
  have more : atEnd stage.parser = some (false, stage.parser) := by
    have is : stage.parser.builder.atEnd = false := by
      rw [atEnd_eq]
      simpa using goesOn
    show some (stage.parser.builder.atEnd, stage.parser) = _
    rw [is]
  have round : statements = (do
      if ← atEnd then pure () else statement >>= fun _ => statements) := by
    show repeatWhile nextInFile = _
    rw [repeatWhile_eq, nextInFile, bind_assoc]
    refine congrArg (atEnd >>= ·) (funext fun ended => ?_)
    cases ended with
    | true => rfl
    | false => exact bind_assoc _ _ _
  refine (congrFun round stage.parser).trans ?_
  rw [run_bind, more]
  rfl

/-- What a statement does where the end of an empty one has been passed. -/
theorem statement_break {body : List Char} (rest : stage.rest = (.statementBreak, body) :: left)
    (ran : advance stage.parser = some ((), after.parser)) :
    statement stage.parser = statement after.parser := by
  have passed : matches? .statementBreak stage.parser = some (true, after.parser) := by
    have is : isAt .statementBreak stage.parser = some (true, stage.parser) := by
      show some (stage.parser.builder.isAt .statementBreak, stage.parser) = _
      rw [isAt_eq rest]
      rfl
    rw [matches?_eq, run_bind, is, Option.bind_some, if_pos rfl, run_bind, ran]
    rfl
  show (repeatWhile (matches? .statementBreak) >>= _) stage.parser = _
  rw [repeatWhile_eq, bind_assoc, run_bind, passed]
  rfl

/-- Any other token is where a statement begins. -/
theorem statement_here {piece : Piece} (rest : stage.rest = piece :: left)
    (other : piece.1 ≠ .statementBreak) :
    statement stage.parser = statementHere (blockFor Builder.maxDepth) stage.parser := by
  have kept : matches? .statementBreak stage.parser = some (false, stage.parser) := by
    have not : isAt .statementBreak stage.parser = some (false, stage.parser) := by
      have is : (nextKind (piece :: left) == some .statementBreak) = false := by simpa using other
      show some (stage.parser.builder.isAt .statementBreak, stage.parser) = _
      rw [isAt_eq rest, is]
    rw [matches?_eq, run_bind, not]
    rfl
  show (repeatWhile (matches? .statementBreak) >>= _) stage.parser = _
  rw [repeatWhile_eq, bind_assoc, run_bind, kept]
  rfl

/-- If something is left after the end of an empty statement, then the statements go on there. -/
theorem statements_break {body : List Char} (rest : stage.rest = (.statementBreak, body) :: left)
    (ran : advance stage.parser = some ((), after.parser)) (goesOn : after.rest ≠ []) :
    statements stage.parser = statements after.parser := by
  rw [statements_more (by rw [rest]; nofun), statements_more goesOn, run_bind, run_bind,
    statement_break rest ran]

/-- The statements go on where the first of them has ended. -/
theorem statements_here {piece : Piece} (rest : stage.rest = piece :: left)
    (other : piece.1 ≠ .statementBreak)
    (ran : statementHere (blockFor Builder.maxDepth) stage.parser = some ((), after.parser)) :
    statements stage.parser = statements after.parser := by
  rw [statements_more (by rw [rest]; nofun), run_bind, statement_here rest other, ran]
  rfl

end

/-! ## Two texts with the same lines -/

section

variable {pair : Pair} {standing : Standing} {start twin middle after : Twin pair}

/-- Reading the statements that are left in both texts means reading those that are left after another
twin. -/
structure GoesOn (twin after : Twin pair) : Prop where
  left : statements twin.left.parser = statements after.left.parser
  right : statements twin.right.parser = statements after.right.parser

theorem GoesOn.trans (first : GoesOn twin middle) (second : GoesOn middle after) :
    GoesOn twin after :=
  ⟨first.left.trans second.left, first.right.trans second.right⟩

/-- Both texts have tokens that the other one need not have. -/
def Tailed (pair : Pair) : Prop := pair.leftTail ≠ [] ∧ pair.rightTail ≠ []

theorem border_of_guarded {spare : Nat} (tailed : Tailed pair) (guarded : Guarded standing spare twin) :
    Border standing spare twin :=
  guarded.resolve_left fun whole => tailed.1 whole.1

theorem exists_after_break (tailed : Tailed pair) (border : Border standing 0 twin) {body : List Char}
    {left : List Piece} (ahead : twin.ahead = (.statementBreak, body) :: left) :
    ∃ after, Gains twin Form.statements .free 0 after ∧ after.ahead.length < twin.ahead.length ∧
      GoesOn twin after := by
  have abreast : Abreast advance advance twin fun _ _ after =>
      Since twin [.token (.statementBreak, body)] after ∧ after.ahead = left ∧
        after.place = twin.place :=
    abreast_advance ahead fun _ since here place => ⟨since, here, place⟩
  obtain ⟨_, after, same, ran, since, here, place⟩ := abreast () _ rfl
  have next : twin.next? = some .statementBreak := by rw [next?, ahead]; rfl
  have free : Guarded .free 0 twin := Guarded.free_of_break (.inr border) next
  have passed := gains_pass free ahead since here place (by rintro ⟨⟩)
  refine ⟨after, passed.mono Form.break_le, ?_, ?_, ?_⟩
  · rw [ahead, here]
    exact Nat.lt_succ_self _
  · refine statements_break (by rw [twin.leftRest, ahead]; rfl) (same ▸ rfl) ?_
    rw [after.leftRest]
    exact List.append_ne_nil_of_right_ne_nil _ tailed.1
  · refine statements_break (by rw [twin.rightRest, ahead]; rfl) ran ?_
    rw [after.rightRest]
    exact List.append_ne_nil_of_right_ne_nil _ tailed.2

theorem exists_after_statement (border : Border standing 0 twin) (outside : twin.place.blocks = 0)
    {piece : Piece} {left : List Piece} (ahead : twin.ahead = piece :: left)
    (other : piece.1 ≠ .statementBreak) :
    ∃ standing after, Gains twin Form.statements standing 0 after ∧ after.ahead.length < twin.ahead.length ∧
      GoesOn twin after := by
  have next : twin.next? = some piece.1 := by rw [next?, ahead]; rfl
  have clear : twin.Clear := clear_of_next? (next ▸ Option.some_ne_none _)
  have leftRest : twin.left.rest = piece :: (left ++ pair.leftTail) := by
    rw [twin.leftRest, ahead]
    rfl
  have rightRest : twin.right.rest = piece :: (left ++ pair.rightTail) := by
    rw [twin.rightRest, ahead]
    rfl
  have top : twin.place.depth = 0 := border.depth.trans outside
  have passes := ends_of_steps (steps_statement 0) top clear next fun _ => .inr outside
  have here : Ends (statementHere (blockFor Builder.maxDepth)) twin.left.parser fun _ after =>
      twin.left.parser.Since twin.place.depth (twin.left.parser.builder.cursor + 1) after := by
    obtain ⟨answer, parser, ran, since⟩ := passes
    exact ⟨answer, parser, (statement_here leftRest other).symm.trans ran, since⟩
  have abreast := (abreast_statementHere (closes_blockFor Builder.maxDepth (Nat.le_add_right _ _))
    (.inr border) clear top).shorter here
  obtain ⟨_, parser, ran, -⟩ := here
  obtain ⟨_, after, same, ran', ⟨standing', gains⟩, shorter⟩ := abreast _ parser ran
  rw [← same] at ran
  exact ⟨standing', after, gains.mono Form.optional_statement_le, shorter, statements_here leftRest other ran,
    statements_here rightRest other ran'⟩

/-- The border is reached at the end of a statement, with no block open and no indent without its
dedent. -/
theorem exists_border {standing : Standing} {twin : Twin pair} (tailed : Tailed pair)
    (border : Border standing 0 twin) (outside : twin.place.blocks = 0) :
    ∃ after, Gains twin Form.statements .free 0 after ∧ after.ahead = [] ∧ GoesOn twin after := by
  have onwards {standing : Standing} {middle : Twin pair} (gains : Gains twin Form.statements standing 0 middle)
      (shorter : middle.ahead.length < twin.ahead.length) (goesOn : GoesOn twin middle) :
      ∃ after, Gains twin Form.statements .free 0 after ∧ after.ahead = [] ∧ GoesOn twin after := by
    obtain ⟨after, more, nothing, goesOn'⟩ := exists_border tailed (border_of_guarded tailed gains.guarded)
      ((Place.blocks_eq gains.stays).trans outside)
    exact ⟨after, gains.more more, nothing, goesOn.trans goesOn'⟩
  cases ahead : twin.ahead with
  | nil =>
      obtain ⟨owed, lined, -⟩ := border.lined
      rw [ahead] at lined
      cases standing with
      | free => exact ⟨twin, (Gains.refl (.inr border)).mono one_le_kstar, ahead, rfl, rfl⟩
      | inRow | goingOn => cases lined
  | cons piece left =>
      obtain ⟨kind, body⟩ := piece
      by_cases ends : kind = .statementBreak
      · subst ends
        obtain ⟨middle, gains, shorter, goesOn⟩ := exists_after_break tailed border ahead
        exact onwards gains shorter goesOn
      · obtain ⟨standing', middle, gains, shorter, goesOn⟩ :=
          exists_after_statement border outside ahead ends
        exact onwards gains shorter goesOn
termination_by twin.ahead.length

end

end StarlarkSyntax.Grammar
