import Mathlib.Data.List.InsertIdx
import StarlarkSyntax.Proofs.Layout.Tiling
/-!
# Tokens in their places

The layout pass copies places from token to token: a token of no width is put where the token behind it
stands, and merged white space where its first part does. So the two places of a token, the caret and the
distance in bytes, always belong to one beginning of the text (`Token.Fit`), and a caret names only one.
No white space is left beside other white space, because all that waits is merged before anything else
comes (`State.Apart`). Together with the tiling this is all that can be said about places
(`Token.InPlace`), and it holds of the tokens of every text (`inPlace_tokenize`).
-/

set_option autoImplicit false

namespace StarlarkSyntax

namespace Caret

theorem lt_advance (caret : Caret) (c : Char) : caret < caret.advance c := by
  rw [lt_def, advance]
  split
  · exact .inl (Nat.lt_succ_self _)
  · exact .inr ⟨rfl, Nat.lt_succ_self _⟩

/-- Reading on without an end at the same place reads nothing. -/
theorem advanceOver_eq_self {caret : Caret} {text : List Char} :
    caret.advanceOver text = caret ↔ text = [] := by
  refine ⟨fun same => ?_, fun none => by rw [none]; rfl⟩
  cases text with
  | nil => rfl
  | cons c text =>
      rw [advanceOver_cons] at same
      have back : caret.advance c ≤ caret := by
        have goesOn := le_advanceOver (caret.advance c) text
        rwa [same] at goesOn
      exact absurd back (lt_advance caret c).2

/-- Of two beginnings of a text, at most one ends at a caret. -/
theorem eq_of_advanceOver_eq {caret : Caret} {text before before' : List Char}
    (first : before <+: text) (second : before' <+: text)
    (same : caret.advanceOver before = caret.advanceOver before') : before = before' := by
  rcases List.prefix_or_prefix_of_prefix first second with ⟨more, rfl⟩ | ⟨more, rfl⟩
  · rw [advanceOver_append] at same
    rw [advanceOver_eq_self.1 same.symm, List.append_nil]
  · rw [advanceOver_append] at same
    rw [advanceOver_eq_self.1 same, List.append_nil]

end Caret

/-! ## Places of single tokens -/

/-- The caret and the distance in bytes after the same beginning of a text. -/
def AtOnePlace (text : List Char) (place : Caret × Nat) : Prop :=
  ∃ before, before <+: text ∧ place = (({} : Caret).advanceOver before, utf8Length before)

/-- A token with both of its places in the same place, and of no width just if it is one of layout. -/
structure Token.Fit (text : List Char) (token : Token) : Prop where
  place : AtOnePlace text (token.span.start, token.offset)
  width : token.kind.isLayout = true ↔ token.body = []

namespace Token

variable {text : List Char} {place : Caret × Nat} {kind : Kind}

theorem fit_zeroWidth (here : AtOnePlace text place) (layout : kind.isLayout = true) :
    (zeroWidth kind place.1 place.2).Fit text :=
  ⟨here, iff_of_true layout rfl⟩

/-- Of tokens that follow one another, each begins with the text behind those before it. -/
theorem Consecutive.offset_eq {offset : Nat} {before after : List Token} {token : Token}
    (consecutive : Consecutive offset (before ++ token :: after)) :
    token.offset = offset + utf8Length (textOf before) := by
  induction before generalizing offset with
  | nil => exact consecutive.1
  | cons first before ih =>
      obtain ⟨rfl, consecutive⟩ := consecutive
      rw [ih consecutive, stop, textOf_cons, utf8Length_append, Nat.add_assoc]

theorem Tiles.start_eq {start final : Caret} {before after : List Token} {token : Token}
    (tiles : Tiles start (before ++ token :: after) final) :
    token.span.start = start.advanceOver (textOf before) := by
  obtain ⟨middle, first, begins, -⟩ := tiles.split
  rw [begins, first.stop_eq]

end Token

theorem Cursor.body_ne_nil {cursor after : Cursor} {found : Scanned}
    (next : cursor.next? = some (found, after)) : found.token.body ≠ [] := by
  intro none
  have shorter := length_next? next
  rw [(next?_spec next).1, none, List.nil_append] at shorter
  exact Nat.lt_irrefl _ shorter

theorem Cursor.body_ne_nil_of_mem_scan (cursor : Cursor) :
    ∀ token ∈ cursor.scan.map Scanned.token, token.body ≠ [] := by
  cases next : cursor.next? with
  | none => simp [scan_of_none next]
  | some found =>
      obtain ⟨found, after⟩ := found
      have shorter := length_next? next
      rw [scan_of_some next, List.map_cons]
      exact List.forall_mem_cons.2 ⟨body_ne_nil next, body_ne_nil_of_mem_scan after⟩
termination_by cursor.rest.length

theorem fit_of_mem_scan (text : List Char) :
    ∀ token ∈ (Cursor.ofText text).scan.map Scanned.token, token.Fit text := by
  intro token mem
  have tiles := Cursor.tiles_scan (.ofText text)
  have consecutive := Cursor.consecutive_scan (.ofText text)
  have whole := Cursor.textOf_scan (.ofText text)
  have plain := Cursor.isLayout_of_mem_scan _ token mem
  have some := Cursor.body_ne_nil_of_mem_scan _ token mem
  obtain ⟨before, after, split⟩ := List.append_of_mem mem
  rw [split] at tiles consecutive whole
  refine ⟨⟨Token.textOf before, ?_, ?_⟩, iff_of_false (by simp [plain]) some⟩
  · rw [Token.textOf_append] at whole
    exact ⟨_, whole⟩
  · rw [tiles.start_eq, consecutive.offset_eq]
    exact congrArg _ (Nat.zero_add _)

/-! ## Places in the layout pass -/

namespace Layout

open Token (Fit)

variable {text : List Char} {state : State} {token : Token}

/-- Every token that the pass has come to fits. -/
structure State.Fitted (text : List Char) (state : State) : Prop where
  given : ∀ token ∈ state.given, token.Fit text
  blanks : ∀ blank ∈ state.blanks.toList, blank.token.Fit text ∧ blank.token.body ≠ []

theorem fit_insert {pending : Array Token} (fits : ∀ token ∈ pending.toList, token.Fit text)
    (place : Nat) {kind : Kind} (layout : kind.isLayout = true) {next : Caret × Nat}
    (after : AtOnePlace text next) :
    ∀ token ∈ (insert pending place kind next).toList, token.Fit text := by
  obtain ⟨pending⟩ := pending
  unfold insert
  dsimp only
  rw [List.insertIdxIfInBounds_toArray, List.getElem?_toArray]
  change ∀ token ∈ pending, token.Fit text at fits
  intro token mem
  rcases List.eq_or_mem_of_mem_insertIdx mem with rfl | mem
  · cases found : pending[place]? with
    | none => exact Token.fit_zeroWidth after layout
    | some behind =>
        exact Token.fit_zeroWidth (fits behind (List.mem_of_getElem? found)).place layout
  · exact fits token mem

theorem isLayout_of_mem_closings (state : State) (indent run : Nat) (blocks : List Nat) :
    ∀ insertion ∈ (closings state indent run blocks).2, insertion.2.isLayout = true := by
  fun_induction closings state indent run blocks with
  | case1 => simp
  | case2 => simp
  | case3 => simp [Kind.isLayout]
  | case4 block outer shallow place other left more same ih =>
      rw [same] at ih
      exact List.forall_mem_cons.2 ⟨rfl, ih⟩

theorem State.Fitted.insert_pending (fitted : state.Fitted text) {pending : Array Token}
    (fits : ∀ token ∈ pending.toList, token.Fit text) (blocks : List Nat) :
    State.Fitted text { state with blocks, pending } := by
  refine ⟨fun token mem => ?_, fitted.blanks⟩
  rcases List.mem_append.1 mem with mem | mem
  · exact fitted.given token (List.mem_append_left _ mem)
  · exact fits token mem

theorem fitted_dedent (fitted : state.Fitted text) (indent run : Nat) {next : Caret × Nat}
    (after : AtOnePlace text next) : (dedent state indent run next).Fitted text := by
  have layout := isLayout_of_mem_closings state indent run state.blocks
  unfold dedent
  dsimp only
  generalize (closings state indent run state.blocks).2 = insertions at layout
  refine fitted.insert_pending ?_ _
  induction insertions with
  | nil => exact fun token mem => fitted.given token (List.mem_append_right _ mem)
  | cons insertion insertions ih =>
      obtain ⟨here, layout⟩ := List.forall_mem_cons.1 layout
      exact fit_insert (ih layout) insertion.1 here after

theorem fitted_openLine (fitted : state.Fitted text) (fits : token.Fit text) :
    (openLine state token).Fitted text := by
  unfold openLine
  split
  · split
    · suffices moved : (indentation state _ (token.span.start, token.offset)).Fitted text from
        ⟨moved.given, moved.blanks⟩
      unfold indentation
      dsimp only
      split
      · exact fitted.insert_pending (fit_insert
          (fun token mem => fitted.given token (List.mem_append_right _ mem)) _ rfl fits.place) _
      · split
        · exact fitted_dedent fitted _ _ fits.place
        · exact fitted
    · exact fitted
  · exact fitted

/-- Merged white space stands where its first part does. -/
theorem fit_merged {start stop : Caret} {blanks : List Blank} {first last : Blank}
    (tiles : Token.Tiles start (blanks.map Blank.token) stop)
    (gapless : ∀ blank ∈ blanks, blank.gap = []) (head : blanks.head? = some first)
    (final : blanks.getLast? = some last) (fits : first.token.Fit text) (some : first.token.body ≠ []) :
    (merged blanks first.token last.token).Fit text where
  place := by
    have begins : first.token.span.start = start := by
      obtain ⟨blanks, rfl⟩ := List.head?_eq_some_iff.1 head
      exact tiles.1
    rw [(tiles_merged tiles gapless head final).1, ← begins]
    exact fits.place
  width := by
    refine iff_of_false ?_ ?_
    · show ¬Kind.isLayout (if _ then _ else _) = true
      split <;> decide
    · obtain ⟨blanks, rfl⟩ := List.head?_eq_some_iff.1 head
      show joinedBody (first :: blanks) ≠ []
      rw [joinedBody, List.flatMap_cons]
      simp [some]

/-- White space that waits comes behind what is there as one token, with the end of a statement before it
or without. -/
theorem given_closeBlanks (state : State) : (closeBlanks state).given = state.given ∨
    ∃ first last between, state.blanks.toList.head? = some first ∧
      state.blanks.toList.getLast? = some last ∧
      (closeBlanks state).given = state.given ++ between ++
        [merged state.blanks.toList first.token last.token] ∧
      (between = [] ∨ between = [.zeroWidth .statementBreak
        (merged state.blanks.toList first.token last.token).span.start
        (merged state.blanks.toList first.token last.token).offset]) := by
  unfold closeBlanks
  split
  · rename_i first last isFirst isLast
    have head : state.blanks.toList.head? = some first := by
      simpa [List.head?_eq_getElem?] using isFirst
    have final : state.blanks.toList.getLast? = some last := by simpa using isLast
    dsimp only
    refine .inr ?_
    split
    · unfold endStatement
      split
      · exact ⟨first, last, _, head, final, by simp [State.given, State.keep, State.settle, beginLine],
          .inr rfl⟩
      · exact ⟨first, last, _, head, final, by simp [State.given, State.keep, beginLine], .inl rfl⟩
    · refine ⟨first, last, _, head, final, ?_, .inl rfl⟩
      unfold indentFirstLine
      split
      · split <;> simp [State.given, State.keep]
      · simp [State.given, State.keep]
  · exact .inl rfl

theorem fitted_closeBlanks {stop : Caret} (fitted : state.Fitted text) (tiled : state.Tiled stop) :
    (closeBlanks state).Fitted text := by
  refine ⟨?_, by simp [blanks_closeBlanks]⟩
  rcases given_closeBlanks state with same | ⟨first, last, between, head, final, same, ended⟩
  · rw [same]
    exact fitted.given
  · obtain ⟨middle, -, waiting⟩ := tiled.tiles.split
    obtain ⟨fits, some⟩ := fitted.blanks first (List.mem_of_head? head)
    have whole := fit_merged waiting tiled.gapless head final fits some
    rw [same]
    intro token mem
    rcases List.mem_append.1 mem with mem | mem
    · rcases List.mem_append.1 mem with mem | mem
      · exact fitted.given token mem
      · rcases ended with rfl | rfl
        · cases mem
        · rw [List.mem_singleton.1 mem]
          exact Token.fit_zeroWidth whole.place rfl
    · rw [List.mem_singleton.1 mem]
      exact whole

theorem given_comment (state : State) (token : Token) :
    (comment state token).given = state.given ++ [token] := by
  unfold comment noteComment
  split
  · split <;> simp [State.given, State.keep]
  · simp [State.given, State.keep]

theorem given_code (state : State) (token : Token) :
    (code state token).given = (openLine state token).given ++ [token] := by
  simp [code, State.given, State.settle]

theorem fitted_blank (fitted : state.Fitted text) (fits : token.Fit text) (some : token.body ≠ []) :
    (blank state token).Fitted text := by
  have waiting (gap : List Char) : ∀ other ∈ (state.blanks.push ⟨gap, token⟩).toList,
      other.token.Fit text ∧ other.token.body ≠ [] := by
    rw [Array.toList_push]
    exact List.forall_mem_append.2 ⟨fitted.blanks, List.forall_mem_singleton.2 ⟨fits, some⟩⟩
  unfold blank
  split
  · split <;> exact ⟨fitted.given, waiting _⟩
  · exact ⟨fitted.given, waiting _⟩

theorem fitted_step {stop : Caret} (fitted : state.Fitted text) (tiled : state.Tiled stop)
    (fits : token.Fit text) (some : token.body ≠ []) : (step state token).Fitted text := by
  have closed := fitted_closeBlanks fitted tiled
  have none := blanks_closeBlanks state
  have added {tokens : List Token} (given : ∀ other ∈ tokens, other.Fit text) :
      ∀ other ∈ tokens ++ [token], other.Fit text :=
    List.forall_mem_append.2 ⟨given, List.forall_mem_singleton.2 fits⟩
  unfold step
  split
  · exact fitted_blank fitted fits some
  · dsimp only
    split
    · refine ⟨?_, by simp [(text_comment _ token none).2]⟩
      rw [given_comment]
      exact added closed.given
    · refine ⟨?_, by simp [(text_code _ token none).2]⟩
      rw [given_code]
      exact added (fitted_openLine closed fits).given

theorem fitted_foldl {tokens : List Token} {start stop : Caret} {offset : Nat}
    (fitted : state.Fitted text) (tiled : state.Tiled start) (ends : state.EndsAt offset)
    (consecutive : Token.Consecutive offset tokens) (tiles : Token.Tiles start tokens stop)
    (fits : ∀ token ∈ tokens, token.Fit text ∧ token.body ≠ []) :
    (tokens.foldl step state).Fitted text := by
  induction tokens generalizing state start offset with
  | nil => exact fitted
  | cons token tokens ih =>
      obtain ⟨rfl, consecutive⟩ := consecutive
      obtain ⟨rfl, whole, tiles⟩ := tiles
      obtain ⟨⟨here, some⟩, fits⟩ := List.forall_mem_cons.1 fits
      exact ih (fitted_step fitted tiled here some) (tiled_step tiled ends whole) (text_step ends).2
        consecutive tiles fits

theorem fits_finish {stop : Caret × Nat} (fitted : state.Fitted text) (tiled : state.Tiled stop.1)
    (after : AtOnePlace text stop) : ∀ token ∈ finish text stop state, token.Fit text := by
  have ended {last : State} (fitted : last.Fitted text) :
      ∀ token ∈ (if text.isEmpty then last.given
        else last.given ++ [.zeroWidth .statementBreak stop.1 stop.2]), token.Fit text := by
    split
    · exact fitted.given
    · exact List.forall_mem_append.2 ⟨fitted.given,
        List.forall_mem_singleton.2 (Token.fit_zeroWidth after rfl)⟩
  have closed := fitted_closeBlanks fitted tiled
  unfold finish
  refine ended ?_
  split
  · split
    · exact fitted_dedent closed _ _ after
    · exact closed
  · exact closed

/-! ## White space apart -/

/-- No white space is beside other white space. -/
def Apart (tokens : List Token) : Prop :=
  tokens.IsChain fun token next => isBlank token = true → isBlank next = false

namespace Apart

variable {before after : List Token}

theorem concat (apart : Apart before) (solid : isBlank token = false) : Apart (before ++ [token]) :=
  List.IsChain.append apart (.singleton token) fun _ _ _ mem _ => by
    cases mem
    exact solid

theorem insert (apart : Apart (before ++ after)) (solid : isBlank token = false) :
    Apart (before ++ token :: after) := by
  refine List.isChain_split.2 ⟨concat apart.left_of_append solid, ?_⟩
  refine List.isChain_cons.2 ⟨fun _ _ blank => ?_, apart.right_of_append⟩
  rw [solid] at blank
  cases blank

theorem insertIdx (apart : Apart (before ++ after)) (place : Nat) (solid : isBlank token = false) :
    Apart (before ++ after.insertIdx place token) := by
  induction after generalizing before place with
  | nil =>
      cases place with
      | zero => exact apart.insert solid
      | succ place => exact apart
  | cons first after ih =>
      cases place with
      | zero => exact apart.insert solid
      | succ place =>
          rw [List.append_cons] at apart
          have more := ih apart place
          rwa [← List.append_cons] at more

end Apart

/-- No white space is beside other white space, and none waits to be joined by what comes next. -/
structure State.Apart (state : State) : Prop where
  given : Layout.Apart state.given
  last : ∀ token ∈ state.given.getLast?, isBlank token = false

theorem isBlank_zeroWidth {kind : Kind} (layout : kind.isLayout = true) (caret : Caret) (offset : Nat) :
    isBlank (.zeroWidth kind caret offset) = false := by
  cases kind <;> first | rfl | cases layout

theorem apart_insert {before : List Token} {pending : Array Token}
    (apart : Apart (before ++ pending.toList)) (place : Nat) {kind : Kind}
    (layout : kind.isLayout = true) (next : Caret × Nat) :
    Apart (before ++ (insert pending place kind next).toList) := by
  obtain ⟨caret, offset, same⟩ := toList_insert pending place kind next
  rw [same]
  exact apart.insertIdx place (isBlank_zeroWidth layout caret offset)

theorem apart_dedent (apart : Apart state.given) (indent run : Nat) (next : Caret × Nat) :
    Apart (dedent state indent run next).given := by
  have layout := isLayout_of_mem_closings state indent run state.blocks
  unfold dedent
  dsimp only
  generalize (closings state indent run state.blocks).2 = insertions at layout
  induction insertions with
  | nil => exact apart
  | cons insertion insertions ih =>
      obtain ⟨here, layout⟩ := List.forall_mem_cons.1 layout
      exact apart_insert (ih layout) insertion.1 here next

theorem apart_openLine (apart : Apart state.given) (token : Token) :
    Apart (openLine state token).given := by
  unfold openLine
  split
  · split
    · show Apart (indentation state _ _).given
      unfold indentation
      dsimp only
      split
      · exact apart_insert apart _ rfl _
      · split
        · exact apart_dedent apart _ _ _
        · exact apart
    · exact apart
  · exact apart

theorem apart_closeBlanks (apart : state.Apart) : Apart (closeBlanks state).given := by
  rcases given_closeBlanks state with same | ⟨first, last, between, -, -, same, ended⟩
  · rw [same]
    exact apart.given
  · have start : Apart (state.given ++ between) := by
      rcases ended with rfl | rfl
      · rw [List.append_nil]
        exact apart.given
      · exact apart.given.concat rfl
    rw [same]
    refine List.IsChain.append start (.singleton _) fun token mem => ?_
    have solid : isBlank token = false := by
      rcases ended with rfl | rfl
      · rw [List.append_nil] at mem
        exact apart.last token mem
      · rw [List.getLast?_concat] at mem
        cases mem
        rfl
    intro _ _ blank
    rw [solid] at blank
    cases blank

theorem State.Apart.of_concat {tokens : List Token} (same : state.given = tokens ++ [token])
    (apart : Layout.Apart tokens) (solid : isBlank token = false) : state.Apart where
  given := same ▸ apart.concat solid
  last := by
    rw [same, List.getLast?_concat]
    intro _ mem
    cases mem
    exact solid

theorem apart_step (apart : state.Apart) (token : Token) : (step state token).Apart := by
  have closed := apart_closeBlanks apart
  unfold step
  split
  · unfold blank
    split
    · split <;> exact ⟨apart.given, apart.last⟩
    · exact ⟨apart.given, apart.last⟩
  · rename_i solid
    rw [Bool.not_eq_true] at solid
    dsimp only
    split
    · exact .of_concat (given_comment _ token) closed solid
    · exact .of_concat (given_code _ token) (apart_openLine closed token) solid

theorem apart_foldl (apart : state.Apart) (tokens : List Token) : (tokens.foldl step state).Apart := by
  induction tokens generalizing state with
  | nil => exact apart
  | cons token tokens ih => exact ih (apart_step apart token)

theorem apart_finish (apart : state.Apart) (text : List Char) (stop : Caret × Nat) :
    Apart (finish text stop state) := by
  have ended {last : State} (apart : Apart last.given) :
      Apart (if text.isEmpty then last.given
        else last.given ++ [.zeroWidth .statementBreak stop.1 stop.2]) := by
    split
    · exact apart
    · exact apart.concat rfl
  have closed := apart_closeBlanks apart
  unfold finish
  refine ended ?_
  split
  · split
    · exact apart_dedent closed _ _ _
    · exact closed
  · exact closed

end Layout

/-! ## The tokens of a text -/

/-- Tokens that tile a text, with their places, and with tokens of layout of no width among them. -/
structure Token.InPlace (text : List Char) (tokens : List Token) : Prop where
  whole : textOf tokens = text
  /-- The distance in bytes and the carets are those of the text before the token and of its own. -/
  place : ∀ before token after, tokens = before ++ token :: after →
    token.offset = utf8Length (textOf before) ∧
      token.span.start = ({} : Caret).advanceOver (textOf before) ∧
      token.span.stop = token.span.start.advanceOver token.body
  layout : ∀ token ∈ tokens, (token.kind.isLayout = true ↔ token.body = []) ∧
    (token.kind.isLayout = true ↔ token.span.isEmpty = true)
  apart : Layout.Apart tokens

theorem stopOf_scan (text : List Char) :
    Layout.stopOf ((Cursor.ofText text).scan.map Scanned.token) =
      (({} : Caret).advanceOver text, utf8Length text) := by
  have tiles := Cursor.tiles_scan (.ofText text)
  have consecutive := Cursor.consecutive_scan (.ofText text)
  have whole : Token.textOf _ = text := Cursor.textOf_scan (.ofText text)
  unfold Layout.stopOf
  split
  · rename_i last found
    obtain ⟨before, split⟩ := List.getLast?_eq_some_iff.1 found
    rw [tiles.stop_of_getLast? found, Token.stop]
    rw [split] at consecutive whole
    rw [consecutive.offset_eq, ← whole, Token.textOf_append, utf8Length_append]
    exact congrArg (Prod.mk _) (by simp [Cursor.ofText])
  · rename_i none
    rw [List.getLast?_eq_none_iff.1 none] at whole
    rw [← whole]
    rfl

theorem fits_tokenize (text : List Char) : ∀ token ∈ (tokenize text).tokens, token.Fit text := by
  have tiles := Cursor.tiles_scan (.ofText text)
  have consecutive := Cursor.consecutive_scan (.ofText text)
  have stop := stopOf_scan text
  have fits : ∀ token ∈ (Cursor.ofText text).scan.map Scanned.token,
      token.Fit text ∧ token.body ≠ [] :=
    fun token mem => ⟨fit_of_mem_scan text token mem, Cursor.body_ne_nil_of_mem_scan _ token mem⟩
  have begun : Layout.State.Tiled { remaining := { text } } {} := .of_none rfl rfl
  have nothing : Layout.State.Fitted text { remaining := { text } } :=
    ⟨by simp [Layout.State.given], by simp⟩
  have noBlanks : Layout.State.EndsAt { remaining := { text } } 0 := by
    intro last found
    simp at found
  refine Layout.fits_finish (Layout.fitted_foldl nothing begun noBlanks consecutive tiles fits) ?_ ?_
  · rw [stop]
    exact Layout.tiled_foldl begun noBlanks consecutive tiles
  · rw [stop]
    exact ⟨text, List.prefix_rfl, rfl⟩

/-- The tokens of a text are all in their places. -/
theorem inPlace_tokenize (text : List Char) : Token.InPlace text (tokenize text).tokens := by
  have tiles := tiles_tokenize text
  have whole := textOf_tokenize text
  have fits := fits_tokenize text
  have nothing : Layout.State.Apart { remaining := { text } } := ⟨.nil, by simp [Layout.State.given]⟩
  refine ⟨whole, fun before token after split => ?_, fun token mem => ?_,
    Layout.apart_finish (Layout.apart_foldl nothing _) _ _⟩
  · rw [split] at tiles whole
    have begins := tiles.start_eq
    obtain ⟨middle, -, rfl, ends, -⟩ := tiles.split
    obtain ⟨before', first, same⟩ := (fits token (by simp [split])).place
    obtain ⟨caret, offset⟩ := Prod.mk.inj same
    rw [Token.textOf_append] at whole
    have one : before' = Token.textOf before :=
      Caret.eq_of_advanceOver_eq first ⟨_, whole⟩ (caret.symm.trans begins)
    exact ⟨offset.trans (congrArg utf8Length one), begins, ends⟩
  · have width := (fits token mem).width
    refine ⟨width, width.trans ?_⟩
    obtain ⟨before, after, split⟩ := List.append_of_mem mem
    rw [split] at tiles
    obtain ⟨middle, -, rfl, ends, -⟩ := tiles.split
    rw [Span.isEmpty_iff, ends]
    exact Caret.advanceOver_eq_self.symm.trans eq_comm

end StarlarkSyntax
