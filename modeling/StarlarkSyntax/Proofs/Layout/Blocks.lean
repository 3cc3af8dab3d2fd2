import StarlarkSyntax.Proofs.Layout.Lead
import StarlarkSyntax.Proofs.Layout.Tiling
import StarlarkSyntax.Proofs.Lexing.Contents
/-!
# Where blocks begin and end

The tokens of a text are one logical line after another (`LaidOut`): what comes before the code of a line,
with the levels that begin or end there in their places among the comment lines, then the line, then the end
of its statement.

The layout pass reaches this from the front. Between lines, the comment lines that it has noted and the
tokens that are pending are those of a `Lead` (`Begun`); on a line with code, nothing that is inserted can be
missing any more (`OnCode`).
-/

set_option autoImplicit false

namespace StarlarkSyntax
namespace Layout

/-! ## Lines of a text -/

/-- The brackets that are open after some pieces. -/
def depthOver (depth : Nat) (pieces : List Piece) : Nat :=
  pieces.foldl (fun depth piece => depthAfter depth piece.1) depth

/-- Line breaks come only inside of brackets. -/
def Unbroken (depth : Nat) : List Piece → Prop
  | [] => True
  | piece :: pieces =>
    (piece.1 = .lineBreak → depth ≠ 0) ∧ Unbroken (depthAfter depth piece.1) pieces

/-- A logical line from its first code on. -/
structure IsLine (line : List Piece) : Prop where
  code : ∃ first more, line = first :: more ∧ first.1.isTrivia = false
  plain : ∀ piece ∈ line, piece.1.isLayout = false
  unbroken : Unbroken 0 line

/-- White space with a line break in it comes before a line. Before the first one can come other white space,
or none. -/
def BeginsLine (first : Bool) (run : List Piece) : Prop :=
  (∃ body, run = [(.lineBreak, body)]) ∨ first = true ∧ (run = [] ∨ ∃ body, run = [(.space, body)])

/-- White space before each of some lines. -/
def BeginLines : Bool → List (List Piece) → Prop
  | _, [] => True
  | first, run :: runs => BeginsLine first run ∧ BeginLines false runs

/-- Comment lines, each on a line of its own. -/
structure Remarks (first : Bool) (remarks : List Remark) : Prop where
  runs : BeginLines first (remarks.map Remark.run)
  comments : ∀ remark ∈ remarks, remark.comment.1 = .comment

/-- Comment lines, and the white space before a line with code. -/
structure Lead.Follows (first : Bool) (lead : Lead) : Prop where
  remarks : Remarks first lead.remarks
  run : BeginsLine (first && lead.remarks.isEmpty) lead.run

/-- The ends of levels before a line come out innermost first. -/
structure Lead.InOrder (lead : Lead) (column : Nat) (levels : List Nat) : Prop where
  innermost : InnermostFirst (endedBy column levels)
  order : (endLevels lead.run lead.remarks (endedBy column levels)).filter (·.1.isLayout) =
    (endedBy column levels).map (mark ·.2)

/-- The pieces of a text from some line on, which may be the first one, where some levels are open. -/
inductive LaidOut : Bool → List Nat → List Piece → Prop
  | nothing : LaidOut true [] []
  /-- A line that a line break ends. -/
  | line {first : Bool} {levels : List Nat} {lead : Lead} {line rest : List Piece} :
    lead.Follows first → lead.InOrder lead.column levels → IsLine line → depthOver 0 line = 0 →
      LaidOut false (lead.arranged levels).2 rest →
      LaidOut first levels ((lead.arranged levels).1 ++ line ++ mark .statementBreak :: rest)
  /-- The text ends on a line with code. -/
  | last {first : Bool} {levels : List Nat} {lead : Lead} {line : List Piece} :
    lead.Follows first → lead.InOrder lead.column levels → IsLine line →
      LaidOut first levels ((lead.arranged levels).1 ++ line ++ [mark .statementBreak])
  /-- The text ends on a line without code, with a comment on it or nothing. All levels end there, at the
  latest right before the white space of that line. -/
  | stop {first : Bool} {levels : List Nat} {lead : Lead} {comment : List Piece} :
    lead.Follows first → lead.InOrder 0 levels →
      (comment = [] ∨ ∃ body, comment = [(.comment, body)]) →
      LaidOut first levels
        (endLevels lead.run lead.remarks (endedBy 0 levels) ++ comment ++ [mark .statementBreak])

section Lines

theorem piece_zeroWidth (kind : Kind) (caret : Caret) (offset : Nat) :
    (Token.zeroWidth kind caret offset).piece = mark kind := rfl

variable {first : Bool} {line : List Piece} {piece : Piece} {remarks : List Remark} {lead : Lead}

theorem unbroken_concat {depth : Nat} : Unbroken depth (line ++ [piece]) ↔
    Unbroken depth line ∧ (piece.1 = .lineBreak → depthOver depth line ≠ 0) := by
  induction line generalizing depth with
  | nil => simp [Unbroken, depthOver]
  | cons other line ih => simp only [List.cons_append, Unbroken, ih, and_assoc]; rfl

theorem depthOver_concat (depth : Nat) (line : List Piece) (piece : Piece) :
    depthOver depth (line ++ [piece]) = depthAfter (depthOver depth line) piece.1 :=
  List.foldl_concat ..

theorem IsLine.single (code : piece.1.isTrivia = false) (plain : piece.1.isLayout = false) :
    IsLine [piece] :=
  ⟨⟨piece, [], rfl, code⟩, List.forall_mem_singleton.2 plain, ⟨by rintro is; simp [is, Kind.isTrivia] at code, trivial⟩⟩

theorem IsLine.concat (line' : IsLine line) (plain : piece.1.isLayout = false)
    (inside : piece.1 = .lineBreak → depthOver 0 line ≠ 0) : IsLine (line ++ [piece]) := by
  obtain ⟨⟨first, more, rfl, code⟩, plain', unbroken⟩ := line'
  exact ⟨⟨first, more ++ [piece], rfl, code⟩,
    List.forall_mem_append.2 ⟨plain', List.forall_mem_singleton.2 plain⟩,
    unbroken_concat.2 ⟨unbroken, inside⟩⟩

theorem beginLines_concat {runs : List (List Piece)} {run : List Piece} :
    BeginLines first (runs ++ [run]) ↔ BeginLines first runs ∧ BeginsLine (first && runs.isEmpty) run := by
  induction runs generalizing first with
  | nil => simp [BeginLines]
  | cons other runs ih => simp [BeginLines, ih, and_assoc]

theorem BeginsLine.isBlank {run : List Piece} (begins : BeginsLine first run) :
    ∀ piece ∈ run, piece.1 = .lineBreak ∨ piece.1 = .space := by
  rcases begins with ⟨body, rfl⟩ | ⟨-, rfl | ⟨body, rfl⟩⟩ <;> simp

/-- One more comment line. -/
theorem Lead.Follows.concat (follows : lead.Follows first) {comment : Piece} (is : comment.1 = .comment) :
    Remarks first (lead.remarks ++ [⟨lead.run, comment⟩]) where
  runs := by
    rw [List.map_append, List.map_singleton, beginLines_concat, List.isEmpty_map]
    exact ⟨follows.remarks.runs, follows.run⟩
  comments := List.forall_mem_append.2 ⟨follows.remarks.comments, List.forall_mem_singleton.2 is⟩

theorem Remarks.none (first : Bool) : Remarks first [] :=
  ⟨trivial, List.forall_mem_nil _⟩

theorem Remarks.plain (all : Remarks first remarks) : ∀ piece ∈ written remarks, piece.1.isLayout = false := by
  obtain ⟨runs, comments⟩ := all
  induction remarks generalizing first with
  | nil => nofun
  | cons remark remarks ih =>
      obtain ⟨run, runs⟩ := runs
      obtain ⟨comment, comments⟩ := List.forall_mem_cons.1 comments
      rw [written_cons]
      refine List.forall_mem_append.2 ⟨List.forall_mem_append.2 ⟨fun piece mem => ?_, ?_⟩, ih runs comments⟩
      · rcases run.isBlank piece mem with is | is <;> rw [is] <;> rfl
      · rw [List.forall_mem_singleton, comment]
        rfl

theorem Lead.Follows.inOrder (follows : lead.Follows first) (column : Nat) {levels : List Nat}
    (sorted : levels.Pairwise (· > ·)) : lead.InOrder column levels := by
  refine ⟨innermostFirst_endedBy sorted, ends_endLevels (innermostFirst_endedBy sorted) (fun x mem => ?_) ?_⟩
  · rcases (endedBy_level x mem).2 with is | is <;> rw [is] <;> rfl
  · refine List.forall_mem_append.2 ⟨follows.remarks.plain, fun piece mem => ?_⟩
    rcases follows.run.isBlank piece mem with is | is <;> rw [is] <;> rfl

theorem Lead.sorted_arranged (lead : Lead) {levels : List Nat} (sorted : levels.Pairwise (· > ·)) :
    (lead.arranged levels).2.Pairwise (· > ·) := by
  unfold Lead.arranged
  split
  · rename_i deeper
    refine List.pairwise_cons.2 ⟨fun level mem => ?_, sorted⟩
    cases levels with
    | nil => cases mem
    | cons top outer =>
        have deeper : top < lead.column := deeper
        rcases List.mem_cons.1 mem with rfl | mem
        · exact deeper
        · have := (List.pairwise_cons.1 sorted).1 level mem
          omega
  · exact sorted.sublist (List.dropWhile_sublist _)

end Lines

/-! ## Where the pass is -/

/-- The pass has come to a line with no code on it yet, after some comment lines and white space. -/
structure Begun (state : State) (first : Bool) (remarks : List Remark) (run : List Piece) : Prop where
  blanks : state.blanks = #[]
  outside : state.depth = 0
  noCode : state.lineHasCode = false
  sorted : state.blocks.Pairwise (· > ·)
  given : ∀ rest, LaidOut first state.blocks rest →
    LaidOut true [] (state.settled.toList.map Token.piece ++ rest)
  pending : state.pending.toList.map Token.piece = written remarks ++ run
  noted : state.commentLines.toList = notes 0 remarks

/-- The line starts in this way. Only where nothing is open yet can it start without a line break. -/
def Starts (state : State) (run indent : Nat) : Prop :=
  ∃ afterBreak, state.lineStart? = some ⟨run, indent, afterBreak⟩ ∧
    (afterBreak = false → state.blocks = [])

/-- The white space before the next token has been read. -/
structure Leading (state : State) (first : Bool) (lead : Lead) : Prop where
  begun : Begun state first lead.remarks lead.run
  follows : lead.Follows first
  starts : Starts state (written lead.remarks).length lead.column

/-- The last token was a comment on a line of its own. -/
structure Remarked (state : State) (first : Bool) (lead : Lead) (comment : Piece) : Prop where
  begun : Begun state first (lead.remarks ++ [⟨lead.run, comment⟩]) []
  follows : lead.Follows first
  comment : comment.1 = .comment
  starts : Starts state (written lead.remarks).length lead.column

/-- The pass has come to a line with code on it. -/
structure OnCode (state : State) : Prop where
  blanks : state.blanks = #[]
  hasCode : state.lineHasCode = true
  opened : state.lineStart? = none
  noComments : state.commentLines = #[]
  sorted : state.blocks.Pairwise (· > ·)
  given : ∃ (first : Bool) (levels : List Nat) (lead : Lead) (before line : List Piece),
    state.given.map Token.piece = before ++ (lead.arranged levels).1 ++ line ∧
    (∀ rest, LaidOut first levels rest → LaidOut true [] (before ++ rest)) ∧
    lead.Follows first ∧ lead.InOrder lead.column levels ∧ state.blocks = (lead.arranged levels).2 ∧
    IsLine line ∧ state.depth = depthOver 0 line

variable {first : Bool} {lead : Lead} {state : State} {token : Token}

/-! ## Steps -/

theorem Leading.comment (leading : Leading state first lead) (is : token.kind = .comment) :
    Remarked (Layout.comment state token) first lead token.piece := by
  obtain ⟨begun, follows, afterBreak, found, noBlocks⟩ := leading
  have size : state.pending.size = (written lead.remarks).length + lead.run.length := by
    rw [← List.length_append, ← begun.pending, List.length_map, Array.length_toList]
  have became : Layout.comment state token = State.keep { state with
      commentLines := state.commentLines.push
        ⟨(written lead.remarks).length, state.pending.size, lead.column⟩ } token := by
    rw [Layout.comment, noteComment, found]
    simp only [begun.outside, if_true]
  rw [became]
  refine ⟨⟨begun.blanks, begun.outside, begun.noCode, begun.sorted, begun.given, ?_, ?_⟩, follows, is,
    afterBreak, found, noBlocks⟩
  · show (state.pending.push token).toList.map Token.piece = _
    rw [Array.toList_push, List.map_append, begun.pending, written_append]
    simp [Remark.pieces]
  · show (state.commentLines.push _).toList = _
    rw [Array.toList_push, begun.noted, notes_append, size]
    simp [notes, Lead.column, Remark.indent]

theorem indentation_same (state : State) (start : LineStart) (next : Caret × Nat) :
    ∃ blocks pending, indentation state start next = { state with blocks, pending } := by
  unfold indentation dedent
  dsimp only
  split
  · exact ⟨_, _, rfl⟩
  · split <;> exact ⟨_, _, rfl⟩

theorem Leading.code (leading : Leading state first lead) (is : isCode token = true)
    (plain : token.kind.isLayout = false) : OnCode (Layout.code state token) := by
  obtain ⟨begun, follows, afterBreak, found, -⟩ := leading
  have notTrivia : token.piece.1.isTrivia = false := by simpa [isCode, Token.piece] using is
  obtain ⟨pieces, levels⟩ :=
    indentation_eq ⟨(written lead.remarks).length, lead.column, afterBreak⟩ begun.sorted begun.pending
      begun.noted rfl rfl (token.span.start, token.offset)
  obtain ⟨blocks, pending, same⟩ := indentation_same state
    ⟨(written lead.remarks).length, lead.column, afterBreak⟩ (token.span.start, token.offset)
  rw [same] at pieces levels
  have opened : openLine state token = { state with blocks, pending, lineStart? := none } := by
    rw [openLine, found]
    simp only [begun.outside, if_true, same]
  have became : Layout.code state token = { state with
      blocks, lineStart? := none, pending := #[], settled := (state.settled ++ pending).push token,
      commentLines := #[], lineHasCode := true, depth := depthAfter state.depth token.kind } := by
    rw [Layout.code, opened]
    rfl
  rw [became]
  refine ⟨begun.blanks, rfl, rfl, rfl, ?_, first, state.blocks, lead,
    state.settled.toList.map Token.piece, [token.piece], ?_, begun.given, follows,
    follows.inOrder _ begun.sorted, levels, .single notTrivia plain, ?_⟩
  · rw [levels]
    exact lead.sorted_arranged begun.sorted
  · simp [State.given, ← pieces]
  · rw [begun.outside]
    rfl

/-- A token on a line with code goes onto the line. -/
theorem OnCode.keep (onCode : OnCode state) (plain : token.kind.isLayout = false)
    (trivia : token.kind.isTrivia = true)
    (inside : token.kind = .lineBreak → state.depth ≠ 0) : OnCode (state.keep token) := by
  obtain ⟨first, levels, lead, before, line, given, grows, follows, inOrder, blocks, line', depth⟩ :=
    onCode.given
  have notCode : isCode token = false := by simp [isCode, trivia]
  refine ⟨onCode.blanks, onCode.hasCode, onCode.opened, onCode.noComments, onCode.sorted, first, levels,
    lead, before, line ++ [token.piece], ?_, grows, follows, inOrder, blocks, line'.concat plain ?_, ?_⟩
  · rw [← List.append_assoc, ← given]
    simp [State.given, State.keep]
  · rw [← depth]
    exact inside
  · rw [depthOver_concat, ← depth]
    exact (depthAfter_of_not_code notCode _).symm

theorem OnCode.comment (onCode : OnCode state) (is : token.kind = .comment) :
    OnCode (Layout.comment state token) := by
  have noted : noteComment state = state := by rw [noteComment, onCode.opened]
  rw [Layout.comment, noted]
  exact onCode.keep (by rw [is]; rfl) (by rw [is]; rfl) (by simp [is])

theorem OnCode.code (onCode : OnCode state) (plain : token.kind.isLayout = false)
    (solid : token.kind ≠ .lineBreak) : OnCode (Layout.code state token) := by
  obtain ⟨first, levels, lead, before, line, given, grows, follows, inOrder, blocks, line', depth⟩ :=
    onCode.given
  have opened : openLine state token = state := by rw [openLine, onCode.opened]
  rw [Layout.code, opened]
  refine ⟨onCode.blanks, rfl, onCode.opened, rfl, onCode.sorted, first, levels, lead, before,
    line ++ [token.piece], ?_, grows, follows, inOrder, blocks,
    line'.concat plain fun is => absurd is solid, ?_⟩
  · rw [← List.append_assoc, ← given]
    simp [State.given, State.settle]
  · rw [depthOver_concat, ← depth]
    rfl

/-! ## White space -/

/-- Only what comes after the last line break counts. -/
theorem columnAfter_lastLine {run : List Token} (broken : ∃ token ∈ run, token.kind = .lineBreak)
    (lineFeeds : ∀ token ∈ run, token.kind = .lineBreak → token.body = ['\n']) (column : Nat) :
    columnAfter column (Token.textOf run) = columnAfter 0 (Token.textOf (lastLine run)) := by
  induction run generalizing column with
  | nil => simp at broken
  | cons token run ih =>
      obtain ⟨here, lineFeeds⟩ := List.forall_mem_cons.1 lineFeeds
      rw [Token.textOf_cons, columnAfter_append]
      by_cases more : ∃ token ∈ run, token.kind = .lineBreak
      · rw [lastLine_cons_of_mem token more, ih more lineFeeds]
      · have none : ∀ token ∈ run, token.kind ≠ .lineBreak := fun token mem is => more ⟨token, mem, is⟩
        have lineBreak : token.kind = .lineBreak := by
          obtain ⟨other, mem, is⟩ := broken
          rcases List.mem_cons.1 mem with rfl | mem
          · exact is
          · exact absurd is (none other mem)
        rw [lastLine_cons_of_lineBreak lineBreak none, here lineBreak]
        rfl

/-- Where the pass is before white space. -/
inductive Paused (state : State) (tokens : List Token) : Prop
  | start (begun : Begun state true [] []) (starts : state.lineStart? = some ⟨0, 0, false⟩)
    (noBlocks : state.blocks = [])
  | remarked {first : Bool} {lead : Lead} {comment : Piece} (is : Remarked state first lead comment)
    (lineBreak : ∀ token ∈ tokens.head?, token.kind = .lineBreak)
  | onCode (is : OnCode state)

theorem Begun.withRemaining {remarks : List Remark} {run : List Piece} (begun : Begun state first remarks run)
    (remaining : Remaining) : Begun { state with blanks := #[], remaining } first remarks run :=
  ⟨rfl, begun.outside, begun.noCode, begun.sorted, begun.given, begun.pending, begun.noted⟩

theorem OnCode.withRemaining (onCode : OnCode state) (remaining : Remaining) :
    OnCode { state with blanks := #[], remaining } :=
  ⟨rfl, onCode.hasCode, onCode.opened, onCode.noComments, onCode.sorted, onCode.given⟩

/-- A space at the beginning of the text indents its first line. -/
theorem Begun.indentFirst (begun : Begun state true [] []) (starts : state.lineStart? = some ⟨0, 0, false⟩)
    (noBlocks : state.blocks = []) {column : Nat} (is : token.kind = .space)
    (indents : columnAfter 0 token.body = column) :
    Leading ((indentFirstLine state column).keep token) true ⟨[], [token.piece]⟩ := by
  have indented : indentFirstLine state column = { state with lineStart? := some ⟨0, column, false⟩ } := by
    rw [indentFirstLine]
    simp only [starts, begun.outside]
    rfl
  rw [indented]
  refine ⟨⟨begun.blanks, begun.outside, begun.noCode, begun.sorted, begun.given, ?_, begun.noted⟩,
    ⟨.none _, .inr ⟨rfl, .inr ⟨token.body, by rw [Token.piece, is]⟩⟩⟩, false, ?_, fun _ => noBlocks⟩
  · show (state.pending.push token).toList.map Token.piece = _
    rw [Array.toList_push, List.map_append, begun.pending]
    rfl
  · show some _ = some _
    rw [← indents]
    simp [Lead.column, Layout.column, Token.piece]

/-- A line break ends the line, and what comes after it on the next one indents that. -/
theorem Begun.beginLine {remarks : List Remark} (begun : Begun state first remarks [])
    (all : Remarks first remarks) {column : Nat} (is : token.kind = .lineBreak)
    (indents : columnAfter 0 token.body = column) :
    Leading ((beginLine (endStatement state token) column).keep token) first
      ⟨remarks, [token.piece]⟩ := by
  have ended : endStatement state token = state := by
    rw [endStatement, if_neg (by simp [begun.noCode])]
  have size : state.pending.size = (written remarks).length := by
    rw [← List.append_nil (written remarks), ← begun.pending, List.length_map, Array.length_toList]
  rw [ended]
  refine ⟨⟨begun.blanks, begun.outside, begun.noCode, begun.sorted, begun.given, ?_, begun.noted⟩,
    ⟨all, .inl ⟨token.body, by rw [Token.piece, is]⟩⟩, true, ?_, by simp⟩
  · show (state.pending.push token).toList.map Token.piece = _
    rw [Array.toList_push, List.map_append, begun.pending, List.append_nil]
    rfl
  · show some _ = some _
    rw [size, ← indents]
    simp [Lead.column, Layout.column, Token.piece]

theorem OnCode.beginLine (onCode : OnCode state) (outside : state.depth = 0) {column : Nat}
    (is : token.kind = .lineBreak) (indents : columnAfter 0 token.body = column) :
    Leading ((beginLine (endStatement state token) column).keep token) false
      ⟨[], [token.piece]⟩ := by
  obtain ⟨first, levels, lead, before, line, given, grows, follows, inOrder, blocks, line', depth⟩ :=
    onCode.given
  have ended : endStatement state token = { state with
      pending := #[], lineHasCode := false
      settled := (state.settled ++ state.pending).push
        (.zeroWidth .statementBreak token.span.start token.offset) } := by
    rw [endStatement, if_pos onCode.hasCode]
    rfl
  have begun : Begun (endStatement state token) false [] [] := by
    rw [ended]
    refine ⟨onCode.blanks, outside, rfl, onCode.sorted, fun rest laidOut => ?_, rfl, ?_⟩
    · have whole := grows _ (.line follows inOrder line' (depth ▸ outside) (blocks ▸ laidOut))
      rw [← List.append_assoc, ← List.append_assoc, ← given] at whole
      simpa [State.given, piece_zeroWidth] using whole
    · rw [onCode.noComments]
      rfl
  have again : endStatement (endStatement state token) token = endStatement state token := by
    rw [endStatement, if_neg (by simp [begun.noCode])]
  rw [← again]
  exact begun.beginLine (.none _) is indents

theorem Paused.blanks {tokens : List Token} (paused : Paused state tokens) : state.blanks = #[] := by
  cases paused with
  | start begun => exact begun.blanks
  | remarked is => exact is.begun.blanks
  | onCode is => exact is.blanks

/-- White space brings the pass to a line. -/
theorem Paused.run {run rest : List Token} {offset : Nat} (paused : Paused state (run ++ rest))
    (blank : ∀ token ∈ run, isBlank token = true) (consecutive : Token.Consecutive offset run)
    (lineFeeds : ∀ token ∈ run, token.kind = .lineBreak → token.body = ['\n']) (some : run ≠ []) :
    (∃ first lead, Leading (closeBlanks (run.foldl step state)) first lead) ∨
      OnCode (closeBlanks (run.foldl step state)) := by
  obtain ⟨remaining, token, kind, body, became⟩ := closeBlanks_run state blank paused.blanks some
  have body := body offset consecutive
  rw [became]
  dsimp only
  by_cases broken : state.depth = 0 ∧ ∃ token ∈ run, token.kind = .lineBreak
  · rw [if_pos broken]
    rw [if_pos broken.2] at kind
    have indents : columnAfter 0 token.body = columnAfter 0 (Token.textOf (lastLine run)) := by
      rw [body, columnAfter_lastLine broken.2 lineFeeds]
    cases paused with
    | start begun =>
        exact .inl ⟨_, _, (begun.withRemaining remaining).beginLine (.none _) kind indents⟩
    | remarked is =>
        exact .inl ⟨_, _, (is.begun.withRemaining remaining).beginLine
          (is.follows.concat is.comment) kind indents⟩
    | onCode is =>
        exact .inl ⟨_, _, (is.withRemaining remaining).beginLine broken.1 kind indents⟩
  · rw [if_neg broken]
    cases paused with
    | start begun starts noBlocks =>
        have space : token.kind = .space := by
          rw [kind, if_neg fun lineBreak => broken ⟨begun.outside, lineBreak⟩]
        exact .inl ⟨_, _, (begun.withRemaining remaining).indentFirst starts noBlocks space
          (congrArg (columnAfter 0) body)⟩
    | remarked is lineBreak =>
        obtain ⟨first, rest, rfl⟩ := List.exists_cons_of_ne_nil some
        exact absurd ⟨is.begun.outside, first, List.mem_cons_self, lineBreak first rfl⟩ broken
    | onCode is =>
        have opened : indentFirstLine { state with blanks := #[], remaining }
            (columnAfter 0 (Token.textOf run)) = { state with blanks := #[], remaining } := by
          rw [indentFirstLine]
          simp only [is.opened]
        rw [opened]
        refine .inr ((is.withRemaining remaining).keep ?_ ?_ fun lineBreak outside => ?_)
        · rw [kind]
          split <;> rfl
        · rw [kind]
          split <;> rfl
        · refine broken ⟨outside, ?_⟩
          by_contra none
          rw [kind, if_neg none] at lineBreak
          cases lineBreak

/-! ## The whole pass -/

/-- A text that ends on a line without code ends its levels there. -/
theorem laidOut_stop {last : List Piece} {text : List Char} (stop : Caret × Nat) (some : text ≠ [])
    (blanks : state.blanks = #[]) (outside : state.depth = 0) (sorted : state.blocks.Pairwise (· > ·))
    (given : ∀ rest, LaidOut first state.blocks rest →
      LaidOut true [] (state.settled.toList.map Token.piece ++ rest))
    (pending : state.pending.toList.map Token.piece = lead.pieces ++ last)
    (places : ∀ level, dedentPlace state level (written lead.remarks).length = endOf level lead.remarks)
    (starts : Starts state (written lead.remarks).length lead.column) (follows : lead.Follows first)
    (comment : last = [] ∨ ∃ body, last = [(.comment, body)]) :
    LaidOut true [] ((finish text stop state).map Token.piece) := by
  have whole := given _ (.stop follows (follows.inOrder 0 sorted) comment)
  have same : closeBlanks state = state := by simp [closeBlanks, blanks]
  obtain ⟨afterBreak, found, noBlocks⟩ := starts
  unfold finish
  dsimp only
  rw [same, found, if_neg (by simpa using some)]
  dsimp only
  cases afterBreak with
  | true =>
      obtain ⟨ended, -⟩ := dedent_eq sorted pending places 0 stop
      rw [if_pos (by simp [outside]), List.map_append, List.map_append, ended]
      simpa [dedent, piece_zeroWidth] using whole
  | false =>
      rw [noBlocks rfl, endedBy, endLevels_nil] at whole
      rw [if_neg (by simp), List.map_append, List.map_append, pending]
      simpa [Lead.pieces, piece_zeroWidth] using whole

theorem Leading.finish {text : List Char} (leading : Leading state first lead) (stop : Caret × Nat)
    (some : text ≠ []) : LaidOut true [] ((finish text stop state).map Token.piece) := by
  obtain ⟨begun, follows, starts⟩ := leading
  refine laidOut_stop stop some begun.blanks begun.outside begun.sorted begun.given
    (begun.pending.trans (List.append_nil _).symm) (fun level => ?_) starts follows (.inl rfl)
  rw [dedentPlace_eq, begun.noted, ← Nat.zero_add (written lead.remarks).length, firstRun_notes,
    Nat.zero_add]

theorem Remarked.finish {text : List Char} {comment : Piece} (remarked : Remarked state first lead comment)
    (stop : Caret × Nat) (some : text ≠ []) :
    LaidOut true [] ((finish text stop state).map Token.piece) := by
  obtain ⟨begun, follows, is, starts⟩ := remarked
  refine laidOut_stop stop some begun.blanks begun.outside begun.sorted begun.given ?_ (fun level => ?_)
    starts follows (.inr ⟨comment.2, by rw [← is]⟩)
  · rw [begun.pending]
    simp [Lead.pieces, Remark.pieces]
  -- The comment that the text ends with has the white space before it where the line begins.
  · rw [dedentPlace_eq, begun.noted, notes_append, notes, notes, firstRun_concat _ _ _ (Nat.zero_add _),
      ← Nat.zero_add (written lead.remarks).length, firstRun_notes, Nat.zero_add]

theorem OnCode.finish {text : List Char} (onCode : OnCode state) (stop : Caret × Nat) (some : text ≠ []) :
    LaidOut true [] ((finish text stop state).map Token.piece) := by
  obtain ⟨first, levels, lead, before, line, given, grows, follows, inOrder, -, line', -⟩ := onCode.given
  have whole := grows _ (.last follows inOrder line')
  rw [← List.append_assoc, ← List.append_assoc, ← given] at whole
  have same : closeBlanks state = state := by simp [closeBlanks, onCode.blanks]
  unfold Layout.finish
  dsimp only
  rw [same, onCode.opened, if_neg (by simpa using some)]
  simpa [State.given, piece_zeroWidth] using whole

theorem consecutive_split {offset : Nat} {tokens more : List Token}
    (consecutive : Token.Consecutive offset (tokens ++ more)) :
    Token.Consecutive offset tokens ∧ ∃ offset', Token.Consecutive offset' more := by
  induction tokens generalizing offset with
  | nil => exact ⟨trivial, offset, consecutive⟩
  | cons token tokens ih =>
      obtain ⟨here, consecutive⟩ := consecutive
      obtain ⟨first, second⟩ := ih consecutive
      exact ⟨⟨here, first⟩, second⟩

/-- What the layout pass reads: tokens that follow one another, with a line break after each comment. -/
structure Readable (offset : Nat) (tokens : List Token) : Prop where
  consecutive : Token.Consecutive offset tokens
  chain : tokens.IsChain fun token next => token.kind = .comment → next.kind = .lineBreak
  lineFeeds : ∀ token ∈ tokens, token.kind = .lineBreak → token.body = ['\n']
  plain : ∀ token ∈ tokens, token.kind.isLayout = false

/-- Where the pass is after white space. Only at the end of the text can there have been none after a
comment. -/
theorem Paused.closeBlanks {run rest : List Token} {offset : Nat} (paused : Paused state (run ++ rest))
    (blank : ∀ token ∈ run, isBlank token = true) (next : ∀ token ∈ rest.head?, isBlank token = false)
    (consecutive : Token.Consecutive offset run)
    (lineFeeds : ∀ token ∈ run, token.kind = .lineBreak → token.body = ['\n']) :
    (∃ first lead, Leading (closeBlanks (run.foldl step state)) first lead) ∨
      OnCode (closeBlanks (run.foldl step state)) ∨
        rest = [] ∧ ∃ first lead comment,
          Remarked (closeBlanks (run.foldl step state)) first lead comment := by
  by_cases none : run = []
  · subst none
    have same : Layout.closeBlanks state = state := by simp [Layout.closeBlanks, paused.blanks]
    rw [List.foldl_nil, same]
    cases paused with
    | start begun starts noBlocks =>
        exact .inl ⟨true, ⟨[], []⟩, begun, ⟨.none _, .inr ⟨rfl, .inl rfl⟩⟩, false, starts,
          fun _ => noBlocks⟩
    | @remarked first lead comment is lineBreak =>
        refine .inr (.inr ⟨?_, first, lead, comment, is⟩)
        cases rest with
        | nil => rfl
        | cons token rest =>
            have notBlank := next token rfl
            simp [isBlank, lineBreak token rfl] at notBlank
    | onCode is => exact .inr (.inl is)
  · exact (paused.run blank consecutive lineFeeds none).imp_right .inl

/-- Where the pass is after the next token. -/
theorem Paused.step {run rest : List Token} {offset : Nat}
    (paused : Paused state (run ++ token :: rest)) (blank : ∀ token ∈ run, isBlank token = true)
    (solid : isBlank token = false) (readable : Readable offset (run ++ token :: rest)) :
    Paused (step (run.foldl step state) token) rest := by
  have notLineBreak : token.kind ≠ .lineBreak := by
    intro lineBreak
    simp [isBlank, lineBreak] at solid
  have plain := readable.plain token (by simp)
  obtain ⟨after, -⟩ := List.isChain_cons.1 readable.chain.right_of_append
  have reached := (paused.closeBlanks blank (by simpa using solid) (consecutive_split readable.consecutive).1
    (List.forall_mem_append.1 readable.lineFeeds).1).imp_right fun either =>
      either.resolve_right fun ends => List.cons_ne_nil _ _ ends.1
  generalize run.foldl Layout.step state = state at reached
  rw [Layout.step, if_neg (by simp [solid])]
  dsimp only
  by_cases isComment : token.kind = .comment
  · rw [if_pos isComment]
    rcases reached with ⟨first, lead, leading⟩ | onCode
    · exact .remarked (leading.comment isComment) fun next found => after next found isComment
    · exact .onCode (onCode.comment isComment)
  · rw [if_neg isComment]
    have isCode : isCode token = true := by
      cases kind : token.kind <;>
        simp_all [Layout.isCode, isBlank, Kind.isTrivia]
    rcases reached with ⟨first, lead, leading⟩ | onCode
    · exact .onCode (leading.code isCode plain)
    · exact .onCode (onCode.code plain notLineBreak)

end Layout

end StarlarkSyntax
