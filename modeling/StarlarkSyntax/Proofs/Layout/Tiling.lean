import StarlarkSyntax.Proofs.Layout.Text
/-!
# Tokens tile the text

Each token of a text stands from the caret that is reached after the text of the tokens before it to the
caret after its own (`tiles_tokenize`). Tokens of layout are of no width, so they stand where what comes
after them begins.
-/

set_option autoImplicit false

namespace StarlarkSyntax

/-- Tokens that follow one another from a caret to another one. -/
def Token.Tiles (start : Caret) : List Token → Caret → Prop
  | [], stop => stop = start
  | token :: tokens, stop => token.span.start = start ∧
      token.span.stop = start.advanceOver token.body ∧ Tiles token.span.stop tokens stop

namespace Token.Tiles

variable {start middle stop : Caret} {tokens more : List Token} {token : Token}

theorem append (first : Tiles start tokens middle) (second : Tiles middle more stop) :
    Tiles start (tokens ++ more) stop := by
  induction tokens generalizing start with
  | nil =>
      cases first
      exact second
  | cons token tokens ih =>
      obtain ⟨begins, ends, first⟩ := first
      exact ⟨begins, ends, ih first⟩

theorem split (tiles : Tiles start (tokens ++ more) stop) :
    ∃ middle, Tiles start tokens middle ∧ Tiles middle more stop := by
  induction tokens generalizing start with
  | nil => exact ⟨start, rfl, tiles⟩
  | cons token tokens ih =>
      obtain ⟨begins, ends, tiles⟩ := tiles
      obtain ⟨middle, first, second⟩ := ih tiles
      exact ⟨middle, ⟨begins, ends, first⟩, second⟩

/-- A token of no width, where its neighbours touch. -/
theorem zeroWidth (kind : Kind) (caret : Caret) (offset : Nat) :
    Tiles caret [.zeroWidth kind caret offset] caret :=
  ⟨rfl, rfl, rfl⟩

/-- The caret after some tokens is the one after their text. -/
theorem stop_eq (tiles : Tiles start tokens stop) : stop = start.advanceOver (textOf tokens) := by
  induction tokens generalizing start with
  | nil => exact tiles
  | cons token tokens ih =>
      obtain ⟨begins, ends, tiles⟩ := tiles
      rw [ih tiles, ends, textOf_cons, Caret.advanceOver_append]

/-- The last token ends where all of them do. -/
theorem stop_of_getLast? (tiles : Tiles start tokens stop) (last : tokens.getLast? = some token) :
    token.span.stop = stop := by
  obtain ⟨front, rfl⟩ := List.getLast?_eq_some_iff.1 last
  obtain ⟨middle, -, -, -, same⟩ := tiles.split
  exact same.symm

/-- Where the last token ends, if there is one. -/
theorem getLast?_stop (tiles : Tiles start tokens stop) :
    (tokens.getLast?.map (·.span.stop)).getD start = stop := by
  cases last : tokens.getLast? with
  | some token => exact tiles.stop_of_getLast? last
  | none =>
      rw [List.getLast?_eq_none_iff.1 last] at tiles
      exact tiles.symm

end Token.Tiles

/-! ## Reading -/

namespace Cursor

theorem tiles_scan (cursor : Cursor) : Token.Tiles cursor.caret (cursor.scan.map Scanned.token)
    (cursor.caret.advanceOver cursor.rest) := by
  cases next : cursor.next? with
  | none =>
      rw [scan_of_none next, next?_eq_none next]
      rfl
  | some found =>
      obtain ⟨found, after⟩ := found
      have shorter := length_next? next
      have here : found.token.span = .ofCarets cursor.caret after.caret ∧
          after.caret = cursor.caret.advanceOver found.token.body := by
        unfold next? at next
        split at next
        · contradiction
        · dsimp only at next
          split at next <;> simp only [Option.some.injEq, Prod.mk.injEq] at next <;>
            obtain ⟨rfl, rfl⟩ := next <;> exact ⟨rfl, rfl⟩
      obtain ⟨span, caret⟩ := here
      have le : cursor.caret ≤ after.caret := caret ▸ Caret.le_advanceOver _ _
      rw [Span.ofCarets_eq le] at span
      rw [scan_of_some next, List.map_cons, (next?_spec next).1, Caret.advanceOver_append, ← caret]
      refine ⟨by rw [span], by rw [span]; exact caret, ?_⟩
      rw [span]
      exact tiles_scan after
termination_by cursor.rest.length

end Cursor

/-! ## Layout -/

namespace Layout

open Token (Tiles)

variable {start stop : Caret}

/-- The tokens that are settled or pending. -/
def State.given (state : State) : List Token := state.settled.toList ++ state.pending.toList

/-- What the pass has come to tiles the text, and no gaps are left in the white space. -/
structure State.Tiled (state : State) (stop : Caret) : Prop where
  tiles : Tiles {} (state.given ++ state.blanks.toList.map Blank.token) stop
  gapless : ∀ blank ∈ state.blanks.toList, blank.gap = []

theorem tiles_insert {pending : Array Token} (tiles : Tiles start pending.toList stop) (place : Nat)
    (kind : Kind) {next : Caret × Nat} (after : next.1 = stop) :
    Tiles start (insert pending place kind next).toList stop := by
  obtain ⟨pending⟩ := pending
  unfold insert
  dsimp only
  rw [List.insertIdxIfInBounds_toArray, List.getElem?_toArray]
  change Tiles start pending stop at tiles
  show Tiles start (pending.insertIdx place _) stop
  induction pending generalizing start place with
  | nil =>
      cases tiles
      cases place with
      | zero =>
          subst after
          exact .zeroWidth kind _ _
      | succ place => rfl
  | cons token pending ih =>
      cases place with
      | zero =>
          obtain ⟨rfl, rest⟩ := tiles
          exact .append (.zeroWidth kind token.span.start token.offset) ⟨rfl, rest⟩
      | succ place =>
          obtain ⟨begins, ends, tiles⟩ := tiles
          refine ⟨begins, ends, ?_⟩
          exact ih place tiles

theorem tiles_dedent {state : State} (tiles : Tiles {} state.given stop) (indent run : Nat)
    {next : Caret × Nat} (after : next.1 = stop) :
    Tiles {} (dedent state indent run next).given stop := by
  obtain ⟨middle, settled, pending⟩ := tiles.split
  refine settled.append ?_
  unfold dedent
  dsimp only
  generalize (closings state indent run state.blocks).2 = insertions
  induction insertions with
  | nil => exact pending
  | cons insertion insertions ih => exact tiles_insert ih insertion.1 insertion.2 after

/-! ## White space -/

/-- The bodies of tokens of white space with their gaps are one run of text. -/
theorem joinedBody_eq {blanks : List Blank} (gapless : ∀ blank ∈ blanks, blank.gap = []) :
    joinedBody blanks = Token.textOf (blanks.map Blank.token) := by
  induction blanks with
  | nil => rfl
  | cons blank blanks ih =>
      obtain ⟨first, gapless⟩ := List.forall_mem_cons.1 gapless
      rw [joinedBody, List.flatMap_cons, first, List.map_cons, Token.textOf_cons, ← ih gapless]
      rfl

theorem tiles_merged {blanks : List Blank} {first last : Blank}
    (tiles : Tiles start (blanks.map Blank.token) stop) (gapless : ∀ blank ∈ blanks, blank.gap = [])
    (head : blanks.head? = some first) (final : blanks.getLast? = some last) :
    Tiles start [merged blanks first.token last.token] stop := by
  have text := tiles.stop_eq
  rw [← joinedBody_eq gapless] at text
  have ends : last.token.span.stop = stop :=
    tiles.stop_of_getLast? (by rw [List.getLast?_map, final]; rfl)
  have begins : first.token.span.start = start := by
    cases blanks with
    | nil => cases head
    | cons blank blanks =>
        cases head
        exact tiles.1
  have le : start ≤ stop := text ▸ Caret.le_advanceOver _ _
  have span : (merged blanks first.token last.token).span = ⟨start, stop, le⟩ := by
    rw [merged, begins, ends, Span.ofCarets_eq le]
  refine ⟨by rw [span], by rw [span]; exact text, by rw [span]; rfl⟩

theorem tiles_endStatement {state : State} (tiles : Tiles {} state.given stop) {after : Token}
    (next : after.span.start = stop) : Tiles {} (endStatement state after).given stop := by
  unfold endStatement
  split
  · rw [next]
    simpa [State.given, State.settle] using tiles.append (.zeroWidth .statementBreak stop after.offset)
  · exact tiles

namespace State.Tiled

variable {state : State} {token : Token}

/-- If no white space waits, only the other tokens matter. -/
theorem of_none (none : state.blanks = #[]) (tiles : Tiles {} state.given stop) : state.Tiled stop where
  tiles := by simpa [none] using tiles
  gapless := by simp [none]

theorem given (tiled : state.Tiled stop) (none : state.blanks = #[]) : Tiles {} state.given stop := by
  simpa [none] using tiled.tiles

theorem blank (tiled : state.Tiled token.span.start) (ends : state.EndsAt token.offset)
    (whole : token.span.stop = token.span.start.advanceOver token.body) :
    (blank state token).Tiled token.span.stop := by
  have more : Tiles {} (state.given ++ state.blanks.toList.map Blank.token ++ [token])
      token.span.stop := tiled.tiles.append ⟨rfl, whole, rfl⟩
  have added : State.Tiled { state with blanks := state.blanks.push ⟨[], token⟩ } token.span.stop :=
    ⟨by simpa [State.given] using more, by simpa [or_imp, forall_and] using tiled.gapless⟩
  unfold Layout.blank
  split
  · rename_i last found
    rw [if_neg (by rw [ends last found]; exact Nat.lt_irrefl _)]
    exact added
  · exact added

theorem keep (tiles : Tiles {} state.given stop) {after : Caret} (more : Tiles stop [token] after) :
    Tiles {} (state.keep token).given after := by
  simpa [State.given, State.keep] using tiles.append more

theorem closeBlanks (tiled : state.Tiled stop) : (closeBlanks state).Tiled stop := by
  refine .of_none (blanks_closeBlanks state) ?_
  unfold Layout.closeBlanks
  split
  · rename_i first last isFirst isLast
    obtain ⟨middle, before, waiting⟩ := tiled.tiles.split
    have merged : Tiles middle [Layout.merged state.blanks.toList first.token last.token] stop :=
      tiles_merged waiting tiled.gapless (by simpa [List.head?_eq_getElem?] using isFirst)
        (by simpa using isLast)
    have before : Tiles {} ({ state with blanks := #[] } : State).given middle := before
    dsimp only
    split
    · exact keep (tiles_endStatement before merged.1) merged
    · refine keep ?_ merged
      unfold indentFirstLine
      split
      · split <;> exact before
      · exact before
  · rename_i none
    exact tiled.given (eq_empty_of_ends none)

end State.Tiled

/-! ## The pass -/

theorem tiles_openLine {state : State} (tiles : Tiles {} state.given stop) {token : Token}
    (next : token.span.start = stop) : Tiles {} (openLine state token).given stop := by
  unfold openLine
  split
  · split
    · show Tiles {} (indentation state _ _).given stop
      unfold indentation
      dsimp only
      split
      · obtain ⟨middle, settled, pending⟩ := tiles.split
        exact settled.append (tiles_insert pending _ .indent next)
      · split
        · exact tiles_dedent tiles _ _ next
        · exact tiles
    · exact tiles
  · exact tiles

theorem tiled_step {state : State} {token : Token} (tiled : state.Tiled token.span.start)
    (ends : state.EndsAt token.offset)
    (whole : token.span.stop = token.span.start.advanceOver token.body) :
    (step state token).Tiled token.span.stop := by
  have closed := tiled.closeBlanks
  have none := blanks_closeBlanks state
  have here : Tiles token.span.start [token] token.span.stop := ⟨rfl, whole, rfl⟩
  unfold step
  split
  · exact tiled.blank ends whole
  · dsimp only
    split
    · refine .of_none (text_comment _ token none).2 (State.Tiled.keep ?_ here)
      unfold noteComment
      split
      · split <;> exact closed.given none
      · exact closed.given none
    · refine .of_none (text_code _ token none).2 ?_
      have opened := tiles_openLine (closed.given none) rfl
      simpa [code, State.given, State.settle] using opened.append here

theorem tiled_foldl {state : State} {tokens : List Token} {start : Caret} {offset : Nat}
    (tiled : state.Tiled start) (ends : state.EndsAt offset)
    (consecutive : Token.Consecutive offset tokens) (tiles : Tiles start tokens stop) :
    (tokens.foldl step state).Tiled stop := by
  induction tokens generalizing state start offset with
  | nil =>
      cases tiles
      exact tiled
  | cons token tokens ih =>
      obtain ⟨rfl, consecutive⟩ := consecutive
      obtain ⟨rfl, whole, tiles⟩ := tiles
      exact ih (tiled_step tiled ends whole) (text_step ends).2 consecutive tiles

theorem tiles_finish {state : State} (tiled : state.Tiled stop) (text : List Char) {last : Caret × Nat}
    (after : last.1 = stop) : Tiles {} (finish text last state) stop := by
  have closed := tiled.closeBlanks.given (blanks_closeBlanks state)
  have ended {last' : State} (tiles : Tiles {} last'.given stop) :
      Tiles {} (if text.isEmpty then last'.given
        else last'.given ++ [.zeroWidth .statementBreak last.1 last.2]) stop := by
    split
    · exact tiles
    · rw [after]
      exact tiles.append (.zeroWidth .statementBreak stop last.2)
  unfold finish
  refine ended ?_
  split
  · split
    · exact tiles_dedent closed _ _ after
    · exact closed
  · exact closed

end Layout

/-- The tokens of a text tile it. -/
theorem tiles_tokenize (text : List Char) :
    Token.Tiles {} (tokenize text).tokens (({} : Caret).advanceOver text) := by
  have tiles := Cursor.tiles_scan (.ofText text)
  have begun : Layout.State.Tiled { remaining := { text } } {} := .of_none rfl rfl
  have noBlanks : Layout.State.EndsAt { remaining := { text } } 0 := by
    intro last found
    simp at found
  have consecutive := Cursor.consecutive_scan (.ofText text)
  refine Layout.tiles_finish (Layout.tiled_foldl begun noBlanks consecutive tiles) text ?_
  rw [← tiles.getLast?_stop]
  unfold Layout.stopOf
  cases (List.map Scanned.token (Cursor.ofText text).scan).getLast? <;> rfl

end StarlarkSyntax
