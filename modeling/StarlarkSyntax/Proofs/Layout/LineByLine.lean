import Mathlib.Data.List.Chain
import Mathlib.Data.List.InsertIdx
import StarlarkSyntax.Proofs.Layout.Lines
import StarlarkSyntax.Proofs.Layout.Text
/-!
# The layout pass works line by line

The pass goes over the tokens once, and at any time it is in the middle of some line. `Reached` says
what its state is then: what has been settled is what the lines before have given, and what the line
itself has given once there is code on it. What is pending holds only white space and comments, so
whatever is inserted there comes before the code of the line, and in the order of its places.

White space is put off until the next other token, so the pass is followed from one such token to the
next: a run of white space, and then the token.
-/

set_option autoImplicit false

namespace StarlarkSyntax
namespace Layout

/-! ## Insertion among white space and comments -/

theorem insertIdx_eq_append {α : Type} (l : List α) (place : Nat) (x : α)
    (inside : place ≤ l.length) : l.insertIdx place x = l.take place ++ x :: l.drop place := by
  induction l generalizing place with
  | nil =>
      have : place = 0 := by simpa using inside
      subst this
      rfl
  | cons y l ih =>
      cases place with
      | zero => rfl
      | succ place => simp [ih place (by simpa using inside)]

/-- Tokens that are inserted from the last place to the first come out in the order of their places. -/
theorem pieces_insertions {pending : Array Token} (next : Caret × Nat)
    (trivia : ∀ token ∈ pending.toList, isCode token = false) (insertions : List (Nat × Kind))
    (sorted : insertions.Pairwise fun x y => x.1 ≤ y.1)
    (inside : ∀ x ∈ insertions, x.1 ≤ pending.size ∧ x.2.isTrivia = false) :
    let result := insertions.foldr (fun (place, kind) pending => insert pending place kind next)
      pending
    pieces result.toList = insertions.map (mark ·.2) ∧ pending.size ≤ result.size ∧
      ∀ n, (∀ x ∈ insertions, n ≤ x.1) → result.toList.take n = pending.toList.take n := by
  induction insertions with
  | nil => exact ⟨pieces_eq_nil trivia, Nat.le_refl _, fun _ _ => rfl⟩
  | cons x insertions ih =>
      obtain ⟨place, kind⟩ := x
      obtain ⟨before, sorted⟩ := List.pairwise_cons.1 sorted
      obtain ⟨⟨room, layout⟩, inside⟩ := List.forall_mem_cons.1 inside
      obtain ⟨ih, size, first⟩ := ih sorted inside
      rw [List.foldr_cons]
      generalize insertions.foldr _ pending = later at ih size first
      obtain ⟨caret, offset, inserted⟩ := toList_insert later place kind next
      have room' : place ≤ later.toList.length := Nat.le_trans room size
      have start := first place before
      have none : pieces (later.toList.take place) = [] := by
        rw [start]
        exact pieces_eq_nil fun token mem => trivia token (List.mem_of_mem_take mem)
      have rest : pieces (later.toList.drop place) = insertions.map (mark ·.2) := by
        have := congrArg pieces (List.take_append_drop place later.toList)
        rwa [pieces_append, none, ih, List.nil_append] at this
      have isCode : isCode (.zeroWidth kind caret offset) = true := by
        simpa [Layout.isCode, Token.zeroWidth] using layout
      refine ⟨?_, ?_, ?_⟩
      · show pieces (insert later place kind next).toList = _
        rw [inserted, insertIdx_eq_append _ _ _ room', pieces_append, pieces_cons, if_pos isCode,
          none, rest]
        rfl
      · show pending.size ≤ (insert later place kind next).toList.length
        rw [inserted, List.length_insertIdx]
        have : later.toList.length = later.size := rfl
        split <;> omega
      · intro n low
        obtain ⟨low, lower⟩ := List.forall_mem_cons.1 low
        show (insert later place kind next).toList.take n = _
        rw [inserted, List.take_insertIdx_eq_take_of_le _ _ _ _ low]
        exact first n lower

/-! ## The stack -/

theorem headD_append_zero (blocks : List Nat) : (blocks ++ [0]).headD 0 = innermost blocks := by
  cases blocks <;> rfl

/-- The comment lines that may stand before the next code, in their order. -/
structure Comments (state : State) (run : Nat) : Prop where
  sorted : state.commentLines.toList.Pairwise fun x y => x.run ≤ y.run
  before : ∀ line ∈ state.commentLines.toList, line.run ≤ run ∧ line.comment ≤ state.pending.size
  inside : run ≤ state.pending.size

/-- The place of the first of some comment lines that passes a test, or else a last place. -/
def firstRun (test : CommentLine → Bool) (run : Nat) (lines : List CommentLine) : Nat :=
  match lines.find? test with
  | some line => line.run
  | none => run

theorem dedentPlace_eq (state : State) (block run : Nat) :
    dedentPlace state block run = firstRun (·.indent < block) run state.commentLines.toList :=
  congrArg (fun found : Option CommentLine => match found with
    | some line => line.run
    | none => run) (Array.find?_toList ..).symm

theorem le_firstRun {test : CommentLine → Bool} {run least : Nat} {lines : List CommentLine}
    (all : ∀ line ∈ lines, least ≤ line.run) (last : least ≤ run) :
    least ≤ firstRun test run lines := by
  unfold firstRun
  split
  · rename_i line found
    exact all line (List.mem_of_find?_eq_some found)
  · exact last

theorem firstRun_le {test : CommentLine → Bool} {run : Nat} {lines : List CommentLine}
    (all : ∀ line ∈ lines, line.run ≤ run) : firstRun test run lines ≤ run := by
  unfold firstRun
  split
  · rename_i line found
    exact all line (List.mem_of_find?_eq_some found)
  · exact Nat.le_refl _

/-- A weaker test is passed earlier. -/
theorem firstRun_mono {weak strong : CommentLine → Bool} {run : Nat} {lines : List CommentLine}
    (sorted : lines.Pairwise fun x y => x.run ≤ y.run) (all : ∀ line ∈ lines, line.run ≤ run)
    (implies : ∀ line, strong line = true → weak line = true) :
    firstRun weak run lines ≤ firstRun strong run lines := by
  induction lines with
  | nil => exact Nat.le_refl _
  | cons line lines ih =>
      obtain ⟨first, sorted⟩ := List.pairwise_cons.1 sorted
      obtain ⟨le, all⟩ := List.forall_mem_cons.1 all
      cases passes : weak line with
      | true =>
          have here : firstRun weak run (line :: lines) = line.run := by
            simp [firstRun, passes]
          rw [here]
          exact le_firstRun (List.forall_mem_cons.2 ⟨Nat.le_refl _, first⟩) le
      | false =>
          have fails : strong line = false := by
            rw [← Bool.not_eq_true]
            intro strict
            rw [implies line strict] at passes
            contradiction
          simpa [firstRun, List.find?_cons, passes, fails] using ih sorted all

theorem dedentPlace_le {state : State} {run : Nat} (comments : Comments state run) (block : Nat) :
    dedentPlace state block run ≤ run := by
  rw [dedentPlace_eq]
  exact firstRun_le fun line mem => (comments.before line mem).1

/-- A block further out does not end earlier. -/
theorem dedentPlace_mono {state : State} {run block outer : Nat} (comments : Comments state run)
    (le : outer ≤ block) : dedentPlace state block run ≤ dedentPlace state outer run := by
  rw [dedentPlace_eq, dedentPlace_eq]
  refine firstRun_mono comments.sorted (fun line mem => (comments.before line mem).1) fun line => ?_
  simp only [decide_eq_true_eq]
  omega

/-- Closing blocks gives what the stack gives, at places that never decrease. -/
theorem closings_spec {state : State} {run : Nat} (comments : Comments state run) (indent : Nat)
    {blocks : List Nat} (sorted : (blocks ++ [0]).Pairwise (· > ·)) {left : List Nat}
    {insertions : List (Nat × Kind)}
    (closed : closings state indent run blocks = (left, insertions)) :
    dedentTo indent (blocks ++ [0]) = (insertions.map (mark ·.2), left ++ [0]) ∧
      (left ++ [0]).Pairwise (· > ·) ∧ (insertions.Pairwise fun x y => x.1 ≤ y.1) ∧
        ∀ x ∈ insertions, dedentPlace state (innermost blocks) run ≤ x.1 ∧ x.1 ≤ run ∧
          x.2.isTrivia = false := by
  induction blocks generalizing left insertions with
  | nil =>
      cases closed
      simp [dedentTo]
  | cons block outer ih =>
      obtain ⟨deeper, sorted'⟩ := List.pairwise_cons.1 sorted
      have place := dedentPlace_le comments block
      obtain ⟨exposed, rest, levels, top⟩ : ∃ exposed rest, outer ++ [0] = exposed :: rest ∧
          innermost outer = exposed := by
        cases outer with
        | nil => exact ⟨0, [], rfl, rfl⟩
        | cons level outer => exact ⟨level, outer ++ [0], rfl, rfl⟩
      have under : exposed ≤ block := by
        have shown : exposed ∈ outer ++ [0] := by
          rw [levels]
          exact List.mem_cons_self
        exact Nat.le_of_lt (deeper exposed shown)
      rw [List.cons_append, levels]
      unfold closings at closed
      split at closed
      · rename_i fits
        cases closed
        rw [dedentTo, if_neg (Nat.not_lt.2 fits), ← levels]
        exact ⟨rfl, sorted, .nil, nofun⟩
      · rename_i deep
        dsimp only at closed
        rw [top] at closed
        rw [dedentTo, if_pos (Nat.not_le.1 deep)]
        split at closed
        · rename_i between
          cases closed
          rw [if_pos between, ← levels]
          refine ⟨rfl, sorted', ?_, ?_⟩
          · simp
          · simp [innermost, place, Kind.isTrivia]
        · rename_i outside
          rw [if_neg outside, ← levels]
          rcases recursion : closings state indent run outer with ⟨left', insertions'⟩
          rw [recursion] at closed
          cases closed
          obtain ⟨stack, kept, order, bounds⟩ := ih sorted' recursion
          have first := dedentPlace_mono comments under
          rw [top] at bounds
          rw [stack]
          refine ⟨rfl, kept, List.pairwise_cons.2 ⟨fun x mem => ?_, order⟩, ?_⟩
          · exact Nat.le_trans first (bounds x mem).1
          · refine List.forall_mem_cons.2 ⟨⟨Nat.le_refl _, place, rfl⟩, fun x mem => ?_⟩
            obtain ⟨least, most, layout⟩ := bounds x mem
            exact ⟨Nat.le_trans first least, most, layout⟩

theorem dedentTo_zero {blocks : List Nat} (sorted : (blocks ++ [0]).Pairwise (· > ·)) :
    dedentTo 0 (blocks ++ [0]) = (List.replicate blocks.length (mark .dedent), [0]) := by
  induction blocks with
  | nil => rfl
  | cons block outer ih =>
      obtain ⟨deeper, sorted⟩ := List.pairwise_cons.1 sorted
      have positive : 0 < block := deeper 0 (by simp)
      have ih := ih sorted
      cases outer with
      | nil => simp [dedentTo, positive, List.replicate_succ]
      | cons exposed outer =>
          rw [List.cons_append] at ih
          simp only [List.cons_append, dedentTo, if_pos positive, Nat.not_lt_zero, if_false, ih]
          rfl

theorem dedent_spec {state : State} {run : Nat} (comments : Comments state run) (indent : Nat)
    (sorted : (state.blocks ++ [0]).Pairwise (· > ·))
    (trivia : ∀ token ∈ state.pending.toList, isCode token = false) (next : Caret × Nat) :
    dedentTo indent (state.blocks ++ [0]) = (pieces (dedent state indent run next).pending.toList,
      (dedent state indent run next).blocks ++ [0]) ∧
      ((dedent state indent run next).blocks ++ [0]).Pairwise (· > ·) := by
  rcases closed : closings state indent run state.blocks with ⟨left, insertions⟩
  obtain ⟨stack, kept, order, bounds⟩ := closings_spec comments indent sorted closed
  have inside : ∀ x ∈ insertions, x.1 ≤ state.pending.size ∧ x.2.isTrivia = false :=
    fun x mem => ⟨Nat.le_trans (bounds x mem).2.1 comments.inside, (bounds x mem).2.2⟩
  obtain ⟨inserted, -⟩ := pieces_insertions next trivia insertions order inside
  unfold dedent
  rw [closed]
  exact ⟨stack.trans (by rw [inserted]), kept⟩

theorem indentPlace_le {state : State} {run : Nat} (comments : Comments state run) (indent : Nat) :
    indentPlace state indent ≤ state.pending.size := by
  unfold indentPlace
  split
  · rename_i line found
    have mem := List.takeWhile_subset _ (List.mem_of_getLast? found)
    exact (comments.before line (List.mem_reverse.1 mem)).2
  · exact Nat.le_refl _

/-- What comes before the first code of a line is what the stack gives for its indentation. -/
theorem indentation_spec {state : State} {start : LineStart} (comments : Comments state start.run)
    (sorted : (state.blocks ++ [0]).Pairwise (· > ·))
    (trivia : ∀ token ∈ state.pending.toList, isCode token = false) (next : Caret × Nat) :
    indentTo start.indent (state.blocks ++ [0]) =
        (pieces (indentation state start next).pending.toList,
          (indentation state start next).blocks ++ [0]) ∧
      ((indentation state start next).blocks ++ [0]).Pairwise (· > ·) := by
  unfold indentTo indentation
  rw [headD_append_zero]
  dsimp only
  by_cases deeper : innermost state.blocks < start.indent
  · rw [if_pos deeper, if_pos deeper]
    obtain ⟨inserted, -⟩ := pieces_insertions next trivia
      [(indentPlace state start.indent, .indent)] (List.pairwise_singleton _ _)
      (by simpa [Kind.isTrivia] using indentPlace_le comments start.indent)
    refine ⟨Prod.ext inserted.symm rfl, List.pairwise_cons.2 ⟨fun level mem => ?_, sorted⟩⟩
    refine Nat.lt_of_le_of_lt ?_ deeper
    rcases blocks : state.blocks with - | ⟨block, outer⟩
    · rw [blocks] at mem
      simpa [innermost] using mem
    · rw [blocks] at mem sorted
      rcases List.mem_cons.1 mem with rfl | mem
      · exact Nat.le_refl _
      · exact Nat.le_of_lt ((List.pairwise_cons.1 sorted).1 level mem)
  · rw [if_neg deeper, if_neg deeper]
    by_cases shallower : start.indent < innermost state.blocks
    · rw [if_pos shallower]
      exact dedent_spec comments start.indent sorted trivia next
    · rw [if_neg shallower, pieces_eq_nil trivia]
      refine ⟨?_, sorted⟩
      rcases blocks : state.blocks with - | ⟨block, outer⟩
      · rfl
      · have fits : ¬ start.indent < block := by simpa [blocks, innermost] using shallower
        cases outer <;>
          simp only [List.cons_append, List.nil_append, dedentTo, if_neg fits]

/-! ## Where the pass is -/

/-- The pass has come to a line with no code on it yet. So many pieces have been given before the
line, and these are the levels there. -/
structure Waiting (state : State) (given : List Piece) (levels : List Nat) (line : List Token) : Prop
  where
  blanks : state.blanks = #[]
  outside : state.depth = 0
  noCode : state.lineHasCode = false
  empty : ∀ token ∈ line, isCode token = false
  given : pieces state.settled.toList = given
  trivia : ∀ token ∈ state.pending.toList, isCode token = false
  levels : state.blocks ++ [0] = levels
  sorted : (state.blocks ++ [0]).Pairwise (· > ·)
  start : ∃ start, state.lineStart? = some start ∧
    start.indent = Line.indentation ⟨line, false⟩ ∧ Comments state start.run ∧
      (start.afterBreak = false → state.blocks = [])

/-- The pass has come to a line with code on it. So many pieces had been given before the line, and
these were the levels there. -/
structure Busy (state : State) (given : List Piece) (levels : List Nat) (line : List Token) : Prop
  where
  blanks : state.blanks = #[]
  hasCode : state.lineHasCode = true
  code : Line.hasCode ⟨line, false⟩ = true
  given : pieces state.settled.toList =
    given ++ (indentTo (Line.indentation ⟨line, false⟩) levels).1 ++ pieces line
  trivia : ∀ token ∈ state.pending.toList, isCode token = false
  levels : state.blocks ++ [0] = (indentTo (Line.indentation ⟨line, false⟩) levels).2
  sorted : (state.blocks ++ [0]).Pairwise (· > ·)
  opened : state.lineStart? = none
  noComments : state.commentLines = #[]

/-- The pass is on some line. -/
inductive Reached (state : State) (given : List Piece) (levels : List Nat) (line : List Token) : Prop
  | waiting (is : Waiting state given levels line)
  | busy (is : Busy state given levels line)

theorem hasCode_of_empty {line : List Token} (empty : ∀ token ∈ line, isCode token = false)
    (broken : Bool) : Line.hasCode ⟨line, broken⟩ = false := by
  rw [Line.hasCode, List.any_eq_false]
  intro token mem
  simp [empty token mem]

/-- What the pass gives at the end is what the line and those after it would have given. -/
theorem pieces_finish {text : List Char} {stop : Caret × Nat} {state : State}
    {given : List Piece} {levels : List Nat} {line : List Token}
    (reached : Reached state given levels line) :
    pieces (finish text stop state) = given ++ layoutLines levels [⟨line, false⟩] ++
      if text.isEmpty then [] else [mark .statementBreak] := by
  have ended (last : State) : pieces (if text.isEmpty then
        last.settled.toList ++ last.pending.toList
        else last.settled.toList ++ last.pending.toList ++
          [.zeroWidth .statementBreak stop.1 stop.2]) =
      pieces last.settled.toList ++ pieces last.pending.toList ++
        if text.isEmpty then [] else [mark .statementBreak] := by
    split
    · simp
    · rw [pieces_append, pieces_append]
      rfl
  have same (none : state.blanks = #[]) : closeBlanks state = state := by
    simp [closeBlanks, none]
  unfold finish
  rw [ended]
  congr 1
  cases reached with
  | waiting is =>
      obtain ⟨start, found, -, comments, first⟩ := is.start
      rw [same is.blanks, found, layoutLines, if_neg (by simp [hasCode_of_empty is.empty]),
        if_neg Bool.false_ne_true, ← is.levels, ← is.given]
      dsimp only
      cases afterBreak : start.afterBreak with
      | true =>
          obtain ⟨stack, -⟩ := dedent_spec comments 0 is.sorted is.trivia stop
          rw [dedentTo_zero is.sorted] at stack
          have closed : List.replicate state.blocks.length (mark .dedent) =
              pieces (dedent state 0 start.run stop).pending.toList := congrArg Prod.fst stack
          rw [if_pos (by simp [is.outside]), ← closed]
          simp [dedent]
      | false =>
          rw [if_neg (by simp), pieces_eq_nil is.trivia, first afterBreak]
          rfl
  | busy is =>
      rw [same is.blanks, is.opened, layoutLines, if_pos is.code]
      simp [is.given, pieces_eq_nil is.trivia, layoutLines]

/-! ## Steps -/

theorem forall_mem_push {pending : Array Token} {token : Token}
    (trivia : ∀ token ∈ pending.toList, isCode token = false) (notCode : isCode token = false) :
    ∀ kept ∈ (pending.push token).toList, isCode kept = false := by
  rw [Array.toList_push]
  exact List.forall_mem_append.2 ⟨trivia, List.forall_mem_singleton.2 notCode⟩

theorem Comments.keep {state : State} {run : Nat} (comments : Comments state run) (token : Token) :
    Comments (state.keep token) run := by
  have grown : (state.keep token).pending.size = state.pending.size + 1 := Array.size_push _
  refine ⟨comments.sorted, fun line mem => ⟨(comments.before line mem).1, ?_⟩, ?_⟩
  · exact Nat.le_trans (comments.before line mem).2 (by omega)
  · exact Nat.le_trans comments.inside (by omega)

theorem reached_comment {state : State} {token : Token} {given : List Piece} {levels : List Nat}
    {line : List Token} (isComment : token.kind = .comment)
    (reached : Reached state given levels line) :
    Reached (comment state token) given levels (line ++ [token]) ∧
      (comment state token).depth = state.depth := by
  have notCode : isCode token = false := by simp [isCode, isComment, Kind.isTrivia]
  have same : Line.indentation ⟨line ++ [token], false⟩ = Line.indentation ⟨line, false⟩ :=
    Line.indentation_append_of_ne (by simp [isComment]) line false
  cases reached with
  | waiting is =>
      obtain ⟨start, found, indent, comments, first⟩ := is.start
      have noted : noteComment state = { state with
          commentLines := state.commentLines.push ⟨start.run, state.pending.size, start.indent⟩ } := by
        rw [noteComment, found]
        simp only [is.outside, if_true]
      have more : Comments (noteComment state) start.run := by
        rw [noted]
        refine ⟨?_, ?_, comments.inside⟩
        · dsimp only
          rw [Array.toList_push]
          refine List.pairwise_append.2 ⟨comments.sorted, List.pairwise_singleton _ _, ?_⟩
          intro line mem last is
          cases List.mem_singleton.1 is
          exact (comments.before line mem).1
        · dsimp only
          rw [Array.toList_push]
          exact List.forall_mem_append.2 ⟨comments.before,
            List.forall_mem_singleton.2 ⟨Nat.le_refl _, Nat.le_refl _⟩⟩
      rw [noted] at more
      unfold comment
      rw [noted]
      exact ⟨.waiting ⟨is.blanks, is.outside, is.noCode,
        List.forall_mem_append.2 ⟨is.empty, List.forall_mem_singleton.2 notCode⟩, is.given,
        forall_mem_push is.trivia notCode, is.levels, is.sorted,
        ⟨start, found, indent.trans same.symm, more.keep token, first⟩⟩, rfl⟩
  | busy is =>
      have noted : noteComment state = state := by
        rw [noteComment, is.opened]
      unfold comment
      rw [noted]
      refine ⟨.busy ⟨is.blanks, is.hasCode, ?_, ?_, forall_mem_push is.trivia notCode, ?_,
        is.sorted, is.opened, is.noComments⟩, rfl⟩
      · simp [Line.hasCode_append, is.code]
      · rw [same, pieces_append, pieces_eq_nil (List.forall_mem_singleton.2 notCode),
          List.append_nil]
        exact is.given
      · rw [same]
        exact is.levels

theorem reached_code {state : State} {token : Token} {given : List Piece} {levels : List Nat}
    {line : List Token} (isCode : isCode token = true) (reached : Reached state given levels line) :
    Reached (code state token) given levels (line ++ [token]) ∧
      Line.hasCode ⟨line ++ [token], false⟩ = true ∧
      (code state token).depth = depthAfter state.depth token.kind := by
  have notSpace : token.kind ≠ .space := by
    intro space
    simp [Layout.isCode, space, Kind.isTrivia] at isCode
  have same : Line.indentation ⟨line ++ [token], false⟩ = Line.indentation ⟨line, false⟩ :=
    Line.indentation_append_of_ne notSpace line false
  have hasCode : Line.hasCode ⟨line ++ [token], false⟩ = true := by
    simp [Line.hasCode_append, isCode]
  have depth : (openLine state token).depth = state.depth := by
    unfold openLine
    split
    · split
      · change (indentation _ _ _).depth = _
        unfold indentation
        dsimp only
        split
        · rfl
        · split <;> rfl
      · rfl
    · rfl
  refine ⟨.busy ?_, hasCode, by rw [code, State.settle, depth]⟩
  have blanks : state.blanks = #[] := by
    cases reached with
    | waiting is => exact is.blanks
    | busy is => exact is.blanks
  have code' : (code state token).settled.toList = (openLine state token).settled.toList ++
      (openLine state token).pending.toList ++ [token] := by
    simp [code, State.settle]
  have opened : (openLine state token).lineStart? = none ∧
      pieces (openLine state token).settled.toList ++ pieces (openLine state token).pending.toList =
        given ++ (indentTo (Line.indentation ⟨line, false⟩) levels).1 ++ pieces line ∧
      (openLine state token).blocks ++ [0] = (indentTo (Line.indentation ⟨line, false⟩) levels).2 ∧
      ((openLine state token).blocks ++ [0]).Pairwise (· > ·) := by
    cases reached with
    | waiting is =>
        obtain ⟨start, found, indent, comments, -⟩ := is.start
        obtain ⟨stack, sorted⟩ := indentation_spec comments is.sorted is.trivia
          (token.span.start, token.offset)
        have unsettled : (indentation state start (token.span.start, token.offset)).settled =
            state.settled := by
          unfold indentation
          dsimp only
          split
          · rfl
          · split <;> rfl
        rw [openLine, found]
        simp only [is.outside, if_true]
        rw [← indent, ← is.levels, stack, unsettled, is.given, pieces_eq_nil is.empty]
        exact ⟨trivial, (List.append_nil _).symm, rfl, sorted⟩
    | busy is =>
        rw [openLine, is.opened]
        exact ⟨is.opened, by rw [pieces_eq_nil is.trivia, List.append_nil, is.given], is.levels,
          is.sorted⟩
  obtain ⟨lineStart, settled, levels', sorted⟩ := opened
  refine ⟨(blanks_openLine state token).trans blanks, rfl, hasCode, ?_, by rintro _ ⟨⟩, ?_, sorted,
    lineStart, rfl⟩
  · rw [code', pieces_append, pieces_append, settled, same, pieces_append, List.append_assoc]
  · rw [same]
    exact levels'

theorem foldl_blank (state : State) {run : List Token}
    (blank : ∀ token ∈ run, isBlank token = true) : ∃ blanks remaining,
      run.foldl step state = { state with blanks, remaining } ∧
        blanks.toList.map Blank.token = state.blanks.toList.map Blank.token ++ run := by
  induction run generalizing state with
  | nil => exact ⟨state.blanks, state.remaining, rfl, (List.append_nil _).symm⟩
  | cons token run ih =>
      obtain ⟨first, rest⟩ := List.forall_mem_cons.1 blank
      obtain ⟨gap, remaining, added⟩ : ∃ gap remaining, step state token =
          { state with blanks := state.blanks.push ⟨gap, token⟩, remaining } := by
        rw [step, if_pos first]
        unfold Layout.blank
        split
        · split
          · exact ⟨_, _, rfl⟩
          · exact ⟨_, _, rfl⟩
        · exact ⟨_, _, rfl⟩
      obtain ⟨blanks, remaining, ran, all⟩ := ih (step state token) rest
      rw [added] at ran all
      exact ⟨blanks, remaining, by rw [List.foldl_cons, added, ran], by simpa using all⟩

/-- What becomes of a run of white space. -/
theorem closeBlanks_run (state : State) {run : List Token}
    (blank : ∀ token ∈ run, isBlank token = true) (closed : state.blanks = #[])
    (nonempty : run ≠ []) : ∃ remaining token,
      (token.kind = if ∃ token ∈ run, token.kind = .lineBreak then .lineBreak else .space) ∧
      (∀ offset, Token.Consecutive offset run → token.body = Token.textOf run) ∧
      closeBlanks (run.foldl step state) =
        let state := { state with blanks := #[], remaining }
        if state.depth = 0 ∧ ∃ token ∈ run, token.kind = .lineBreak then
          (beginLine (endStatement state token) (columnAfter 0 (Token.textOf (lastLine run)))).keep
            token
        else (indentFirstLine state (columnAfter 0 (Token.textOf run))).keep token := by
  obtain ⟨blanks, remaining, ran, all⟩ := foldl_blank state blank
  rw [closed, List.map_nil, List.nil_append] at all
  have inside : 0 < blanks.size := by
    rcases Nat.eq_zero_or_pos blanks.size with zero | inside
    · rw [Array.eq_empty_of_size_eq_zero zero] at all
      exact absurd all.symm nonempty
    · exact inside
  obtain ⟨first, isFirst⟩ : ∃ first, blanks[0]? = some first :=
    ⟨_, Array.getElem?_eq_getElem inside⟩
  obtain ⟨last, isLast⟩ : ∃ last, blanks.back? = some last :=
    ⟨_, Array.back?_eq_getElem?.trans (Array.getElem?_eq_getElem (Nat.sub_lt inside Nat.one_pos))⟩
  have kind : (merged blanks.toList first.token last.token).kind =
      if ∃ token ∈ run, token.kind = .lineBreak then .lineBreak else .space := by
    rw [← all]
    generalize blanks.toList = blanks
    simp [merged]
  have broken : (merged blanks.toList first.token last.token).kind = .lineBreak ↔
      ∃ token ∈ run, token.kind = .lineBreak := by
    rw [kind]
    split <;> simp_all
  refine ⟨remaining, merged blanks.toList first.token last.token, kind, fun offset consecutive => ?_, ?_⟩
  · have text := text_foldl consecutive (fun last found => by simp [closed] at found : state.EndsAt offset)
    rw [ran] at text
    simpa [State.text, closed, joinedBody, merged] using text
  · rw [ran]
    unfold closeBlanks
    simp only [isFirst, isLast, all, measure_eq, Bool.and_eq_true, decide_eq_true_eq, beq_iff_eq,
      broken]
    rfl

theorem Reached.withRemaining {state : State} {given : List Piece} {levels : List Nat}
    {line : List Token} (reached : Reached state given levels line) (remaining : Remaining) :
    Reached { state with blanks := #[], remaining } given levels line := by
  cases reached with
  | waiting is =>
      obtain ⟨start, found, indent, comments, first⟩ := is.start
      exact .waiting ⟨rfl, is.outside, is.noCode, is.empty, is.given, is.trivia, is.levels,
        is.sorted, start, found, indent, ⟨comments.sorted, comments.before, comments.inside⟩, first⟩
  | busy is =>
      exact .busy ⟨rfl, is.hasCode, is.code, is.given, is.trivia, is.levels, is.sorted, is.opened,
        is.noComments⟩

theorem isCode_of_space {token : Token} (space : token.kind = .space) : isCode token = false := by
  simp [isCode, space, Kind.isTrivia]

theorem indentation_of_spaces {spaces : List Token} (all : ∀ token ∈ spaces, token.kind = .space) :
    Line.indentation ⟨spaces, false⟩ = columnAfter 0 (Token.textOf spaces) := by
  have whole : spaces.takeWhile (·.kind == .space) = spaces :=
    List.takeWhile_eq_self_iff.2 fun token mem => by simpa using all token mem
  rw [Line.indentation, whole]

/-- A line break outside brackets ends the line, and a line with some spaces on it begins. -/
theorem reached_beginLine {state : State} {given : List Piece} {levels : List Nat}
    {line spaces : List Token} (reached : Reached state given levels line)
    (outside : state.depth = 0) (all : ∀ token ∈ spaces, token.kind = .space) {token : Token}
    (notCode : isCode token = false) : ∃ given' levels',
      Reached ((beginLine (endStatement state token)
        (columnAfter 0 (Token.textOf spaces))).keep token) given' levels' spaces ∧
      (endStatement state token).depth = state.depth ∧
      ∀ lines, given ++ layoutLines levels (⟨line, true⟩ :: lines) =
        given' ++ layoutLines levels' lines := by
  have empty : ∀ token ∈ spaces, isCode token = false :=
    fun token mem => isCode_of_space (all token mem)
  have indent := (indentation_of_spaces all).symm
  cases reached with
  | waiting is =>
      obtain ⟨start, -, -, comments, -⟩ := is.start
      have ended : endStatement state token = state := by
        rw [endStatement, if_neg (by simp [is.noCode])]
      have begun : Comments (beginLine state (columnAfter 0 (Token.textOf spaces)))
          state.pending.size := by
        refine ⟨comments.sorted, fun line mem => ?_, Nat.le_refl _⟩
        obtain ⟨before, inside⟩ := comments.before line mem
        exact ⟨Nat.le_trans before comments.inside, inside⟩
      rw [ended]
      refine ⟨given, levels, .waiting ⟨is.blanks, is.outside, is.noCode, empty, is.given,
        forall_mem_push is.trivia notCode, is.levels, is.sorted, _, rfl, indent,
        begun.keep token, by rintro ⟨⟩⟩, rfl, fun lines => ?_⟩
      rw [layoutLines, if_neg (by simp [hasCode_of_empty is.empty]), if_pos rfl]
  | busy is =>
      have ended : endStatement state token = { state.settle with
          settled := state.settle.settled.push
            (.zeroWidth .statementBreak token.span.start token.offset)
          lineHasCode := false } := by
        rw [endStatement, if_pos is.hasCode]
      have noComments : (endStatement state token).commentLines = #[] := by
        rw [ended]
        exact is.noComments
      have begun : Comments (beginLine (endStatement state token)
          (columnAfter 0 (Token.textOf spaces))) (endStatement state token).pending.size := by
        have none : (beginLine (endStatement state token)
            (columnAfter 0 (Token.textOf spaces))).commentLines = #[] := noComments
        exact ⟨by simp [none], by simp [none], Nat.le_refl _⟩
      rw [ended] at begun ⊢
      have settled : ∀ token ∈ state.settle.pending.toList, isCode token = false := by rintro _ ⟨⟩
      refine ⟨given ++ (indentTo (Line.indentation ⟨line, false⟩) levels).1 ++ pieces line ++
          [mark .statementBreak], (indentTo (Line.indentation ⟨line, false⟩) levels).2,
        .waiting ⟨is.blanks, outside, rfl, empty, ?_, forall_mem_push settled notCode, is.levels,
          is.sorted, _, rfl, indent, begun.keep token, by rintro ⟨⟩⟩, rfl, fun lines => ?_⟩
      · show pieces ((state.settled ++ state.pending).push _).toList = _
        rw [Array.toList_push, Array.toList_append, pieces_append, pieces_append, is.given,
          pieces_eq_nil is.trivia, List.append_nil]
        rfl
      · have same : Line.hasCode ⟨line, true⟩ = true := is.code
        rw [layoutLines, if_pos same]
        simp only [if_pos, List.append_assoc]
        rfl

theorem reached_spaces {state : State} {given : List Piece} {levels : List Nat}
    {line run : List Token} (reached : Reached state given levels line)
    (blank : ∀ token ∈ run, isBlank token = true) (inside : Line.hasCode ⟨line, false⟩ = true ∨
      line = [] ∧ (∃ start, state.lineStart? = some start ∧ start.afterBreak = false) ∧
        ∀ token ∈ run, token.kind = .space) {token : Token} (notCode : isCode token = false) :
    Reached ((indentFirstLine state (columnAfter 0 (Token.textOf run))).keep token) given levels
      (line ++ run) ∧ (indentFirstLine state (columnAfter 0 (Token.textOf run))).depth =
        state.depth := by
  have empty : ∀ token ∈ run, isCode token = false :=
    fun token mem => isCode_of_blank (blank token mem)
  cases reached with
  | waiting is =>
      have noCode := hasCode_of_empty is.empty false
      rw [noCode] at inside
      obtain ⟨rfl, ⟨start, found, first⟩, spaces⟩ := inside.resolve_left Bool.false_ne_true
      obtain ⟨start', found', -, comments, noBlocks⟩ := is.start
      cases found.symm.trans found'
      rw [List.nil_append]
      obtain ⟨lineStart, isStart⟩ : ∃ lineStart : LineStart,
          lineStart = { start with indent := columnAfter 0 (Token.textOf run) } := ⟨_, rfl⟩
      have indented : indentFirstLine state (columnAfter 0 (Token.textOf run)) =
          { state with lineStart? := some lineStart } := by
        rw [indentFirstLine, found, isStart]
        simp [is.outside, first]
      have kept : Comments { state with lineStart? := some lineStart } lineStart.run := by
        rw [isStart]
        exact ⟨comments.sorted, comments.before, comments.inside⟩
      rw [indented]
      refine ⟨.waiting ⟨is.blanks, is.outside, is.noCode, empty, is.given,
        forall_mem_push is.trivia notCode, is.levels, is.sorted, lineStart, rfl, ?_,
        kept.keep token, fun _ => noBlocks first⟩, rfl⟩
      rw [isStart, indentation_of_spaces spaces]
  | busy is =>
      have same : indentFirstLine state (columnAfter 0 (Token.textOf run)) = state := by
        rw [indentFirstLine, is.opened]
      have indentation := Line.indentation_append_of_hasCode run is.code
      rw [same]
      refine ⟨.busy ⟨is.blanks, is.hasCode, ?_, ?_, forall_mem_push is.trivia notCode, ?_,
        is.sorted, is.opened, is.noComments⟩, rfl⟩
      · simp [Line.hasCode_append, is.code]
      · rw [indentation, pieces_append, pieces_eq_nil empty, List.append_nil]
        exact is.given
      · rw [indentation]
        exact is.levels

/-- Only at the beginning of a text or of its first line can white space come before the code of a
line without a line break in it: elsewhere it has been read already, or a comment comes before it. -/
def Ready (state : State) (line tokens : List Token) : Prop :=
  Line.hasCode ⟨line, false⟩ = true ∨
    (line = [] ∧ ∃ start, state.lineStart? = some start ∧ start.afterBreak = false) ∨
      ∀ token ∈ tokens.head?, token.kind = .lineBreak

theorem reached_run {state : State} {run : List Token} {given : List Piece} {levels : List Nat}
    {line : List Token} (blank : ∀ token ∈ run, isBlank token = true)
    (reached : Reached state given levels line) (ready : Ready state line run) :
    ∃ given' levels' line', Reached (closeBlanks (run.foldl step state)) given' levels' line' ∧
      (closeBlanks (run.foldl step state)).depth = state.depth ∧
      ∀ tokens, given ++ layoutLines levels (linesFrom state.depth line (run ++ tokens)) =
        given' ++ layoutLines levels' (linesFrom state.depth line' tokens) := by
  have closed : state.blanks = #[] := by
    cases reached with
    | waiting is => exact is.blanks
    | busy is => exact is.blanks
  rcases run.eq_nil_or_concat with rfl | nonempty
  · have same : closeBlanks state = state := by simp [closeBlanks, closed]
    exact ⟨given, levels, line, by rwa [List.foldl_nil, same], by rw [List.foldl_nil, same],
      fun _ => rfl⟩
  have nonempty : run ≠ [] := by
    obtain ⟨_, _, rfl⟩ := nonempty
    simp
  have allTrivia : ∀ token ∈ run, isCode token = false :=
    fun token mem => isCode_of_blank (blank token mem)
  obtain ⟨remaining, token, kind, -, became⟩ := closeBlanks_run state blank closed nonempty
  have notCode : isCode token = false := by
    rw [isCode, kind]
    split <;> rfl
  rw [became]
  by_cases broken : state.depth = 0 ∧ ∃ token ∈ run, token.kind = .lineBreak
  · dsimp only
    rw [if_pos broken]
    obtain ⟨outside, broken⟩ := broken
    have spaces : ∀ token ∈ lastLine run, token.kind = .space := by
      intro token mem
      have among : token ∈ run := List.mem_reverse.1 (List.takeWhile_subset _ (List.mem_reverse.1 mem))
      have either := blank token among
      simp only [isBlank, Bool.or_eq_true, decide_eq_true_eq] at either
      exact either.resolve_right (goesOn_of_mem_lastLine mem)
    obtain ⟨given', levels', begun, depth, same⟩ :=
      reached_beginLine (reached.withRemaining remaining) outside spaces notCode
    refine ⟨given', levels', lastLine run, begun, depth, fun tokens => ?_⟩
    rw [outside, layoutLines_broken levels line blank broken, same]
  · dsimp only
    rw [if_neg broken]
    have inside : state.depth ≠ 0 ∨ ∀ token ∈ run, token.kind ≠ .lineBreak := by
      by_cases outside : state.depth = 0
      · exact .inr fun token mem is => broken ⟨outside, token, mem, is⟩
      · exact .inl outside
    have goesOn : Line.hasCode ⟨line, false⟩ = true ∨
        line = [] ∧ (∃ start, state.lineStart? = some start ∧ start.afterBreak = false) ∧
          ∀ token ∈ run, token.kind = .space := by
      cases reached with
      | busy is => exact .inl is.code
      | waiting is =>
          have lasts : ∀ token ∈ run, token.kind ≠ .lineBreak :=
            inside.resolve_left (not_not_intro is.outside)
          rcases ready with code | ⟨noTokens, first⟩ | lineBreak
          · exact .inl code
          · refine .inr ⟨noTokens, first, fun token mem => ?_⟩
            have either := blank token mem
            simp only [isBlank, Bool.or_eq_true, decide_eq_true_eq] at either
            exact either.resolve_right (lasts token mem)
          · obtain ⟨first, rest, rfl⟩ := List.exists_cons_of_ne_nil nonempty
            exact absurd (lineBreak first rfl) (lasts first List.mem_cons_self)
    obtain ⟨kept, depth⟩ :=
      reached_spaces (reached.withRemaining remaining) blank goesOn notCode
    exact ⟨given, levels, line ++ run, kept, depth, fun tokens => by
      rw [linesFrom_append _ _ blank inside]⟩

/-! ## The whole pass -/

/-- White space that has been made into one token stays so. -/
theorem finish_closeBlanks (text : List Char) (stop : Caret × Nat) (state : State) :
    finish text stop (closeBlanks state) = finish text stop state := by
  have closed : closeBlanks (closeBlanks state) = closeBlanks state := by
    have none := blanks_closeBlanks state
    generalize closeBlanks state = state at none
    simp [closeBlanks, none]
  unfold finish
  rw [closed]

theorem pieces_foldl {text : List Char} {stop : Caret × Nat} {state : State}
    {given : List Piece} {levels : List Nat} {line tokens : List Token}
    (reached : Reached state given levels line) (ready : Ready state line tokens)
    (chain : tokens.IsChain fun token next => token.kind = .comment → next.kind = .lineBreak) :
    pieces (finish text stop (tokens.foldl step state)) =
      given ++ layoutLines levels (linesFrom state.depth line tokens) ++
        if text.isEmpty then [] else [mark .statementBreak] := by
  -- Each round is a run of white space and the token after it.
  obtain ⟨run, rest, whole, blank, next⟩ : ∃ run rest, tokens = run ++ rest ∧
      (∀ token ∈ run, isBlank token = true) ∧ ∀ token ∈ rest.head?, isBlank token = false := by
    refine ⟨tokens.takeWhile isBlank, tokens.dropWhile isBlank,
      List.takeWhile_append_dropWhile.symm, fun token => List.mem_takeWhile_imp, ?_⟩
    intro token first
    have stops := List.head?_dropWhile_not isBlank tokens
    rw [first] at stops
    simpa using stops
  have ready : Ready state line run := by
    refine ready.imp_right (.imp_right fun lineBreak token first => lineBreak token ?_)
    rw [whole, List.head?_append, first]
    rfl
  obtain ⟨given', levels', line', reached', depth, same⟩ := reached_run blank reached ready
  rw [whole, List.foldl_append, same]
  cases rest with
  | nil =>
      have finished : pieces (finish text stop (closeBlanks (run.foldl step state))) = _ :=
        pieces_finish reached'
      rwa [finish_closeBlanks] at finished
  | cons token rest =>
      have notBlank : ¬ isBlank token = true := by simp [next token rfl]
      have notLineBreak : token.kind ≠ .lineBreak := by
        intro lineBreak
        simp [isBlank, lineBreak] at notBlank
      have shorter : rest.length < tokens.length := by
        rw [whole, List.length_append, List.length_cons]
        omega
      rw [whole] at chain
      obtain ⟨after, chain⟩ := List.isChain_cons.1 chain.right_of_append
      rw [List.foldl_cons, step, if_neg notBlank, linesFrom_of_ne notLineBreak, ← depth]
      dsimp only
      by_cases isComment : token.kind = .comment
      · rw [if_pos isComment]
        obtain ⟨reached, depth⟩ := reached_comment isComment reached'
        have ready : Ready (comment (closeBlanks (run.foldl step state)) token)
            (line' ++ [token]) rest :=
          .inr (.inr fun next first => after next first isComment)
        have notCode : isCode token = false := by simp [isCode, isComment, Kind.isTrivia]
        rw [pieces_foldl reached ready chain, depthAfter_of_not_code notCode, depth]
      · rw [if_neg isComment]
        have isCode : isCode token = true := by
          cases kind : token.kind <;>
            simp_all [Layout.isCode, isBlank, Kind.isTrivia]
        obtain ⟨reached, hasCode, depth⟩ := reached_code isCode reached'
        rw [pieces_foldl reached (.inl hasCode) chain, depth]
termination_by tokens.length

/-- Without white space and comments, the tokens of layout and the others are what the lines give one
by one. -/
theorem pieces_layout {text : List Char} {tokens : List Token} (empty : text.isEmpty = tokens.isEmpty)
    (chain : tokens.IsChain fun token next => token.kind = .comment → next.kind = .lineBreak) :
    pieces (layout text tokens) = lineByLine tokens := by
  have atStart : Waiting { remaining := { text } } [] [0] [] :=
    ⟨rfl, rfl, rfl, nofun, rfl, nofun, rfl, List.pairwise_singleton _ _, ⟨0, 0, false⟩, rfl, rfl,
      ⟨.nil, nofun, Nat.le_refl _⟩, fun _ => rfl⟩
  have ready : Ready { remaining := { text } } [] tokens := .inr (.inl ⟨rfl, _, rfl, rfl⟩)
  refine (pieces_foldl (.waiting atStart) ready chain).trans ?_
  rw [lineByLine, empty]
  rfl

end Layout

/-- Without white space and comments, the tokens of a text are what its lines give one by one. -/
theorem pieces_tokenize (text : List Char) : Layout.pieces (tokenize text).tokens =
    Layout.lineByLine ((Cursor.ofText text).scan.map Scanned.token) :=
  Layout.pieces_layout (Cursor.isEmpty_scan (.ofText text)) (Cursor.isChain_scan _)

end StarlarkSyntax
