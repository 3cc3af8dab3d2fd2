import StarlarkSyntax.Proofs.Layout.Places
/-!
# Tokens that the layout pass keeps

The layout pass merges tokens of white space and adds tokens of layout. All other tokens, comments and
invalid ones among them, it puts out just as they were read, places included, and in their order
(`filter_tokenize`). White space waits until it is merged, and what is inserted among pending tokens is
layout, so one step adds the token itself to those that were kept before (`kept_step`).
-/

set_option autoImplicit false

namespace StarlarkSyntax
namespace Layout

/-- Is the token neither white space nor layout? -/
def isKept (token : Token) : Bool := !isBlank token && !token.kind.isLayout

/-- The tokens that the pass has kept so far. -/
def State.kept (state : State) : List Token := state.given.filter isKept

theorem not_isKept_of_isBlank {token : Token} (blank : isBlank token = true) : isKept token = false := by
  rw [isKept, blank]
  rfl

theorem filter_blank {token : Token} (blank : isBlank token = true) : [token].filter isKept = [] :=
  List.filter_cons_of_neg (by rw [not_isKept_of_isBlank blank]; exact Bool.false_ne_true)

theorem not_isKept_of_isLayout {token : Token} (layout : token.kind.isLayout = true) :
    isKept token = false := by
  rw [isKept, layout, Bool.not_true, Bool.and_false]

theorem not_isKept_zeroWidth {kind : Kind} (layout : kind.isLayout = true) (caret : Caret)
    (offset : Nat) : isKept (.zeroWidth kind caret offset) = false :=
  not_isKept_of_isLayout layout

/-! ## White space -/

theorem isBlank_merged (blanks : List Blank) (first last : Token) :
    isBlank (merged blanks first last) = true := by
  unfold isBlank merged
  dsimp only
  split <;> rfl

theorem kept_keep (state : State) (token : Token) :
    (state.keep token).kept = state.kept ++ [token].filter isKept := by
  rw [State.kept, State.kept, ← List.filter_append]
  simp [State.keep, State.given]

theorem kept_endStatement (state : State) (after : Token) :
    (endStatement state after).kept = state.kept := by
  unfold endStatement
  split
  · have layout : isKept (.zeroWidth .statementBreak after.span.start after.offset) = false :=
      not_isKept_zeroWidth rfl _ _
    simp [State.settle, State.kept, State.given, layout]
  · rfl

theorem kept_indentFirstLine (state : State) (indent : Nat) :
    (indentFirstLine state indent).kept = state.kept := by
  unfold indentFirstLine
  split
  · split <;> rfl
  · rfl

theorem kept_closeBlanks (state : State) : (closeBlanks state).kept = state.kept := by
  have none (blanks : List Blank) (first last : Token) :
      [merged blanks first last].filter isKept = [] :=
    filter_blank (isBlank_merged blanks first last)
  unfold closeBlanks
  split
  · dsimp only
    split
    · rw [kept_keep, none, List.append_nil]
      exact kept_endStatement _ _
    · rw [kept_keep, none, List.append_nil, kept_indentFirstLine]
      rfl
  · rfl

/-! ## Indentation -/

theorem filter_insertIdx (tokens : List Token) (place : Nat) {token : Token}
    (layout : token.kind.isLayout = true) :
    (tokens.insertIdx place token).filter isKept = tokens.filter isKept := by
  have gone := not_isKept_of_isLayout layout
  induction tokens generalizing place with
  | nil => cases place <;> simp [gone]
  | cons first tokens ih => cases place <;> simp [gone, List.filter_cons, ih]

theorem filter_insert (pending : Array Token) (place : Nat) {kind : Kind} (layout : kind.isLayout = true)
    (next : Caret × Nat) :
    (insert pending place kind next).toList.filter isKept = pending.toList.filter isKept := by
  obtain ⟨caret, offset, inserted⟩ := toList_insert pending place kind next
  rw [inserted, filter_insertIdx _ _ layout]

theorem kept_dedent (state : State) (indent run : Nat) (next : Caret × Nat) :
    (dedent state indent run next).kept = state.kept := by
  have layout := isLayout_of_mem_closings state indent run state.blocks
  unfold dedent
  dsimp only
  generalize (closings state indent run state.blocks).2 = insertions at layout
  rw [State.kept, State.kept, State.given, State.given, List.filter_append, List.filter_append,
    List.append_cancel_left_eq]
  induction insertions with
  | nil => rfl
  | cons insertion insertions ih =>
      obtain ⟨here, layout⟩ := List.forall_mem_cons.1 layout
      exact (filter_insert _ _ here next).trans (ih layout)

theorem kept_openLine (state : State) (token : Token) : (openLine state token).kept = state.kept := by
  unfold openLine
  split
  · split
    · change (indentation _ _ _).kept = _
      unfold indentation
      dsimp only
      split
      · rw [State.kept, State.kept, State.given, State.given, List.filter_append, List.filter_append,
          List.append_cancel_left_eq]
        exact filter_insert _ _ rfl _
      · split
        · exact kept_dedent _ _ _ _
        · rfl
    · rfl
  · rfl

/-! ## The pass -/

/-- A step adds its token to those that are kept, if it is to be kept. -/
theorem kept_step (state : State) (token : Token) :
    (step state token).kept = state.kept ++ [token].filter isKept := by
  have closed := kept_closeBlanks state
  unfold step
  split
  · rename_i white
    rw [filter_blank white, List.append_nil, blank]
    split
    · split <;> rfl
    · rfl
  · dsimp only
    split
    · have noted : (noteComment (closeBlanks state)).kept = (closeBlanks state).kept := by
        unfold noteComment
        split
        · split <;> rfl
        · rfl
      rw [comment, kept_keep, noted, closed]
    · rw [← closed, ← kept_openLine (closeBlanks state) token]
      generalize opened : openLine (closeBlanks state) token = line
      rw [code, opened, State.kept, State.kept, ← List.filter_append]
      simp [State.settle, State.given]

theorem kept_foldl (tokens : List Token) (state : State) :
    (tokens.foldl step state).kept = state.kept ++ tokens.filter isKept := by
  induction tokens generalizing state with
  | nil => simp
  | cons token tokens ih =>
      rw [List.foldl_cons, ih, kept_step, List.append_assoc, ← List.filter_append,
        List.singleton_append]

theorem filter_finish (text : List Char) (stop : Caret × Nat) (state : State) :
    (finish text stop state).filter isKept = state.kept := by
  have ended (last : State) (same : last.kept = state.kept) :
      (if text.isEmpty then last.given else last.given ++ [.zeroWidth .statementBreak stop.1 stop.2]).filter
        isKept = state.kept := by
    have layout : isKept (.zeroWidth .statementBreak stop.1 stop.2) = false :=
      not_isKept_zeroWidth rfl _ _
    rw [← same]
    split <;> simp [State.kept, layout]
  unfold finish
  refine ended _ ?_
  split
  · split
    · exact (kept_dedent _ _ _ _).trans (kept_closeBlanks state)
    · exact kept_closeBlanks state
  · exact kept_closeBlanks state

end Layout

/-- What is neither white space nor layout is put out just as it was read, and in its order. -/
theorem filter_tokenize (text : List Char) :
    (tokenize text).tokens.filter Layout.isKept = (Cursor.ofText text).read.filter Layout.isKept :=
  (Layout.filter_finish _ _ _).trans (Layout.kept_foldl _ _)

end StarlarkSyntax
