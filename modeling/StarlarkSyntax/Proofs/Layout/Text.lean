import StarlarkSyntax.Lexed
import StarlarkSyntax.Proofs.Layout.Scan
/-!
# The layout pass keeps the text

The layout pass merges tokens of white space and adds tokens of no width, so the text of the tokens
stays the same: that of the whole text (`textOf_tokenize`). The gaps that merged white space might
have had are empty, because the tokens that are read leave none.
-/

set_option autoImplicit false

namespace StarlarkSyntax
namespace Layout

/-- The text of what the pass has come to. -/
def State.text (state : State) : List Char :=
  Token.textOf state.settled.toList ++ Token.textOf state.pending.toList ++
    joinedBody state.blanks.toList

/-- The white space that waits to be merged ends at some distance in bytes. -/
def State.EndsAt (state : State) (offset : Nat) : Prop :=
  ∀ last, state.blanks.back? = some last → last.token.stop = offset

@[simp] theorem textOf_zeroWidth (kind : Kind) (caret : Caret) (offset : Nat) :
    (Token.zeroWidth kind caret offset).body = [] := rfl

/-! ## White space -/

theorem text_blank {state : State} {token : Token} (ends : state.EndsAt token.offset) :
    (blank state token).text = state.text ++ token.body ∧
      (blank state token).EndsAt token.stop := by
  unfold blank
  split
  · rename_i last found
    rw [if_neg (by rw [ends last found]; exact Nat.lt_irrefl _)]
    refine ⟨?_, ?_⟩
    · simp [State.text, joinedBody]
    · intro last found
      simp at found
      rw [← found]
  · refine ⟨?_, ?_⟩
    · simp [State.text, joinedBody]
    · intro last found
      simp at found
      rw [← found]

theorem text_keep (state : State) (token : Token) (none : state.blanks = #[]) :
    (state.keep token).text = state.text ++ token.body := by
  simp [State.keep, State.text, none, joinedBody]

theorem text_endStatement (state : State) (after : Token) :
    (endStatement state after).text = state.text := by
  unfold endStatement
  split
  · simp [State.settle, State.text]
  · rfl

theorem text_indentFirstLine (state : State) (indent : Nat) :
    (indentFirstLine state indent).text = state.text := by
  unfold indentFirstLine
  split
  · split <;> rfl
  · rfl

theorem blanks_endStatement (state : State) (after : Token) :
    (endStatement state after).blanks = state.blanks := by
  unfold endStatement
  split <;> rfl

theorem blanks_indentFirstLine (state : State) (indent : Nat) :
    (indentFirstLine state indent).blanks = state.blanks := by
  unfold indentFirstLine
  split
  · split <;> rfl
  · rfl

/-- An array without a first and a last member has none. -/
theorem eq_empty_of_ends {α : Type} {array : Array α}
    (none : ∀ first last, array[0]? = some first → array.back? = some last → False) : array = #[] := by
  refine Array.eq_empty_of_size_eq_zero (Nat.eq_zero_of_not_pos fun inside => ?_)
  exact none _ _ (Array.getElem?_eq_getElem inside) (Array.back?_eq_getElem?.trans
    (Array.getElem?_eq_getElem (Nat.sub_lt inside Nat.one_pos)))

theorem blanks_closeBlanks (state : State) : (closeBlanks state).blanks = #[] := by
  unfold closeBlanks
  split
  · dsimp only
    split
    · simp [State.keep, beginLine, blanks_endStatement]
    · simp [State.keep, blanks_indentFirstLine]
  · rename_i none
    exact eq_empty_of_ends none

theorem text_closeBlanks (state : State) : (closeBlanks state).text = state.text := by
  have without (state : State) :
      State.text { state with blanks := #[] } ++ joinedBody state.blanks.toList = state.text := by
    simp [State.text, joinedBody]
  unfold closeBlanks
  split
  · dsimp only
    split
    · rw [text_keep _ _ (by simp [beginLine, blanks_endStatement])]
      change State.text (endStatement _ _) ++ joinedBody state.blanks.toList = _
      rw [text_endStatement, without]
    · rw [text_keep _ _ (by simp [blanks_indentFirstLine]), text_indentFirstLine]
      exact without state
  · rfl

/-! ## Indentation -/

/-- Inserting adds one token of no width. -/
theorem toList_insert (pending : Array Token) (place : Nat) (kind : Kind) (next : Caret × Nat) :
    ∃ caret offset, (insert pending place kind next).toList =
      pending.toList.insertIdx place (.zeroWidth kind caret offset) := by
  obtain ⟨pending⟩ := pending
  unfold insert
  dsimp only
  rw [List.insertIdxIfInBounds_toArray]
  exact ⟨_, _, rfl⟩

theorem textOf_insertIdx (tokens : List Token) (place : Nat) {token : Token}
    (empty : token.body = []) :
    Token.textOf (tokens.insertIdx place token) = Token.textOf tokens := by
  induction tokens generalizing place with
  | nil => cases place <;> simp [empty]
  | cons first tokens ih => cases place <;> simp [empty, ih]

theorem textOf_insert (pending : Array Token) (place : Nat) (kind : Kind) (next : Caret × Nat) :
    Token.textOf (insert pending place kind next).toList = Token.textOf pending.toList := by
  obtain ⟨caret, offset, inserted⟩ := toList_insert pending place kind next
  rw [inserted, textOf_insertIdx _ _ (textOf_zeroWidth _ _ _)]

theorem text_dedent (state : State) (indent run : Nat) (next : Caret × Nat) :
    (dedent state indent run next).text = state.text := by
  have inserted (insert : Nat × Kind → Array Token → Array Token)
      (same : ∀ insertion pending,
        Token.textOf (insert insertion pending).toList = Token.textOf pending.toList)
      (insertions : List (Nat × Kind)) :
      Token.textOf (insertions.foldr insert state.pending).toList =
        Token.textOf state.pending.toList := by
    induction insertions with
    | nil => rfl
    | cons insertion insertions ih => exact (same _ _).trans ih
  simp only [dedent, State.text, inserted _ fun _ _ => textOf_insert _ _ _ _]

theorem text_openLine (state : State) (token : Token) : (openLine state token).text = state.text := by
  unfold openLine
  split
  · split
    · change State.text (indentation _ _ _) = _
      unfold indentation
      dsimp only
      split
      · simp [State.text, textOf_insert]
      · split
        · exact text_dedent _ _ _ _
        · rfl
    · rfl
  · rfl

/-! ## The pass -/

theorem blanks_openLine (state : State) (token : Token) :
    (openLine state token).blanks = state.blanks := by
  unfold openLine
  split
  · split
    · change (indentation _ _ _).blanks = _
      unfold indentation
      dsimp only
      split
      · rfl
      · split <;> rfl
    · rfl
  · rfl

theorem text_comment (state : State) (token : Token) (none : state.blanks = #[]) :
    (comment state token).text = state.text ++ token.body ∧ (comment state token).blanks = #[] := by
  have noted : (noteComment state).text = state.text ∧ (noteComment state).blanks = #[] := by
    unfold noteComment
    split
    · split <;> exact ⟨rfl, none⟩
    · exact ⟨rfl, none⟩
  unfold comment
  rw [text_keep _ _ noted.2, noted.1]
  exact ⟨rfl, noted.2⟩

theorem text_code (state : State) (token : Token) (none : state.blanks = #[]) :
    (code state token).text = state.text ++ token.body ∧ (code state token).blanks = #[] := by
  have opened := text_openLine state token
  have blanks := (blanks_openLine state token).trans none
  refine ⟨?_, blanks⟩
  rw [← opened]
  simp [code, State.text, State.settle, blanks, joinedBody]

theorem text_step {state : State} {token : Token} (ends : state.EndsAt token.offset) :
    (step state token).text = state.text ++ token.body ∧ (step state token).EndsAt token.stop := by
  have away {state : State} (none : state.blanks = #[]) : state.EndsAt token.stop := by
    intro last found
    simp [none] at found
  have none := blanks_closeBlanks state
  have same := text_closeBlanks state
  unfold step
  split
  · exact text_blank ends
  · dsimp only
    rw [← same]
    split
    · obtain ⟨text, blanks⟩ := text_comment (closeBlanks state) token none
      exact ⟨text, away blanks⟩
    · obtain ⟨text, blanks⟩ := text_code (closeBlanks state) token none
      exact ⟨text, away blanks⟩

theorem text_foldl {state : State} {offset : Nat} {tokens : List Token}
    (consecutive : Token.Consecutive offset tokens) (ends : state.EndsAt offset) :
    (tokens.foldl step state).text = state.text ++ Token.textOf tokens := by
  induction tokens generalizing state offset with
  | nil => simp
  | cons token tokens ih =>
      obtain ⟨rfl, consecutive⟩ := consecutive
      obtain ⟨text, ends⟩ := text_step ends
      rw [List.foldl_cons, ih consecutive ends, text, Token.textOf_cons, List.append_assoc]

theorem text_finish (text : List Char) (stop : Caret × Nat) (state : State) :
    Token.textOf (finish text stop state) = state.text := by
  have ended (last : State) (none : last.blanks = #[]) (same : last.text = state.text) :
      Token.textOf (if text.isEmpty then last.settled.toList ++ last.pending.toList
        else last.settled.toList ++ last.pending.toList ++
          [.zeroWidth .statementBreak stop.1 stop.2]) = state.text := by
    rw [← same]
    split <;> simp [State.text, none, joinedBody]
  have none := blanks_closeBlanks state
  have same := text_closeBlanks state
  unfold finish
  refine ended _ ?_ ?_
  · split
    · split <;> exact none
    · exact none
  · split
    · split
      · exact (text_dedent _ _ _ _).trans same
      · exact same
    · exact same

end Layout

/-- The text of the tokens is the whole text. -/
theorem textOf_tokenize (text : List Char) : Token.textOf (tokenize text).tokens = text := by
  have consecutive := Cursor.consecutive_scan (.ofText text)
  have read := Cursor.textOf_scan (.ofText text)
  change Token.textOf (Layout.finish _ _ _) = text
  rw [Layout.text_finish, Layout.text_foldl consecutive, read]
  · rfl
  · intro last found
    simp at found

end StarlarkSyntax
