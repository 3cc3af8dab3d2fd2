import StarlarkSyntax.Proofs.Builder.Fill
import StarlarkSyntax.Proofs.Lexing.Contents
import StarlarkSyntax.Proofs.Print.Row
import StarlarkSyntax.Proofs.Twin.Border
/-!
# A text after whole lines

A text whose last token is the end of a line is read into the same tokens whatever comes after it
(`contents_append`): no rule of the lexical grammar but that of a string goes on over a line feed,
and a string that does has run into the end of the line, or else is a token that ends before it.

If no bracket is open on that line, then the lines of another text after it are lines of their own, and if
the first of these with code on it is not indented, then all blocks are closed before it. So the tokens of
layout of both texts are the same as in each of them alone, apart from the end of the first text
(`Layout.pieces_append`).
-/

set_option autoImplicit false

namespace StarlarkSyntax

/-- The last token of a text is the end of a line. -/
def LastIsBreak (text : List Char) : Prop :=
  ∃ content, (contents text).getLast? = some content ∧ content.1.1 = .lineBreak

/-- A text whose last token is the end of a line is read in the same way whatever comes after it. -/
theorem contents_append {text : List Char} (last : LastIsBreak text) (more : List Char) :
    contents (text ++ more) = contents text ++ contents more := by
  obtain ⟨content, is, lineBreak⟩ := last
  refine ((stretch_contents text).change fun other mem => .inl ?_).contents
  cases is.symm.trans mem
  exact lineBreak

theorem messages_append {text : List Char} (last : LastIsBreak text) (more : List Char) :
    messages (text ++ more) = messages text ++ messages more := by
  rw [messages_eq, messages_eq, messages_eq, contents_append last, List.filterMap_append]

namespace Layout

/-! ## Tokens without their places -/

/-- The token at the start of a text. -/
def unplaced (token : Token) : Token := { token with span := default, offset := 0 }

namespace Line

/-- The line with its tokens without their places. -/
def unplaced (line : Line) : Line := ⟨line.tokens.map Layout.unplaced, line.broken⟩

end Line

theorem pieces_unplaced (tokens : List Token) : pieces (tokens.map unplaced) = pieces tokens := by
  induction tokens with
  | nil => rfl
  | cons token tokens ih =>
      rw [List.map_cons, pieces_cons, pieces_cons, ih]
      rfl

theorem takeWhile_unplaced (tokens : List Token) :
    (tokens.map unplaced).takeWhile (·.kind == .space) =
      (tokens.takeWhile (·.kind == .space)).map unplaced := by
  rw [List.takeWhile_map]
  rfl

theorem textOf_unplaced (tokens : List Token) :
    Token.textOf (tokens.map unplaced) = Token.textOf tokens := by
  rw [Token.textOf, Token.textOf, List.flatMap_map]
  rfl

theorem hasCode_unplaced (line : Line) : line.unplaced.hasCode = line.hasCode := by
  rw [Line.hasCode, Line.unplaced, List.any_map]
  rfl

theorem indentation_unplaced (line : Line) : line.unplaced.indentation = line.indentation := by
  rw [Line.indentation, Line.unplaced, takeWhile_unplaced, textOf_unplaced, Line.indentation]

theorem linesFrom_unplaced (depth : Nat) (line tokens : List Token) :
    linesFrom depth (line.map unplaced) (tokens.map unplaced) =
      (linesFrom depth line tokens).map Line.unplaced := by
  induction tokens generalizing depth line with
  | nil => rfl
  | cons token tokens ih =>
      rw [List.map_cons, linesFrom, linesFrom]
      split
      · rw [if_pos ‹_›, List.map_cons]
        exact congrArg _ (ih 0 [])
      · rw [if_neg ‹_›, ← ih, List.map_append]
        rfl

theorem layoutLines_unplaced (levels : List Nat) (lines : List Line) :
    layoutLines levels (lines.map Line.unplaced) = layoutLines levels lines := by
  induction lines generalizing levels with
  | nil => rfl
  | cons line lines ih =>
      have same : line.unplaced.broken = line.broken := rfl
      have tokens : pieces line.unplaced.tokens = pieces line.tokens := pieces_unplaced _
      simp only [List.map_cons, layoutLines, hasCode_unplaced, indentation_unplaced, same, tokens, ih]

/-- Where the tokens stand makes no difference to the layout. -/
theorem lineByLine_congr {tokens tokens' : List Token}
    (same : tokens.map Token.piece = tokens'.map Token.piece) :
    lineByLine tokens = lineByLine tokens' := by
  have bare (tokens : List Token) : lineByLine (tokens.map unplaced) = lineByLine tokens := by
    rw [lineByLine, lineByLine, ← layoutLines_unplaced [0] (linesFrom 0 [] tokens),
      ← linesFrom_unplaced, List.map_nil, List.isEmpty_map]
  have again : tokens.map unplaced = tokens'.map unplaced := by
    have placed := congrArg (List.map fun piece : Piece => (⟨piece.1, default, piece.2, 0⟩ : Token)) same
    rwa [List.map_map, List.map_map] at placed
  rw [← bare, again, bare]

/-! ## Lines after lines -/

/-- All tokens but the line breaks that end lines are on the lines. -/
theorem pieces_linesFrom (depth : Nat) (line tokens : List Token) :
    (linesFrom depth line tokens).flatMap (pieces ·.tokens) = pieces (line ++ tokens) := by
  induction tokens generalizing depth line with
  | nil => simp [linesFrom]
  | cons token tokens ih =>
      rw [linesFrom]
      split
      · rename_i ends
        have none : isCode token = false := by simp [isCode, ends.2, Kind.isTrivia]
        rw [List.flatMap_cons, ih, List.nil_append, pieces_append, pieces_cons, if_neg (by simp [none])]
      · rw [ih, List.append_assoc, List.singleton_append]

/-- After the end of a line that no bracket is open on, new lines begin. -/
theorem linesFrom_append_line {depth : Nat} (line : List Token) {tokens : List Token}
    (last : ∃ token, tokens.getLast? = some token ∧ token.kind = .lineBreak)
    (closed : tokens.foldl (fun depth token => depthAfter depth token.kind) depth = 0) :
    ∃ lines : List Line, (∀ line ∈ lines, line.broken = true) ∧
      ∀ more, linesFrom depth line (tokens ++ more) = lines ++ linesFrom 0 [] more := by
  induction tokens generalizing depth line with
  | nil =>
      obtain ⟨_, is, -⟩ := last
      cases is
  | cons token tokens ih =>
      by_cases nothing : tokens = []
      · subst nothing
        rw [List.getLast?_singleton] at last
        obtain ⟨_, ⟨⟩, lineBreak⟩ := last
        have outside : depth = 0 := by
          rw [List.foldl_cons, lineBreak] at closed
          exact closed
        refine ⟨[⟨line, true⟩], by simp, fun more => ?_⟩
        rw [List.singleton_append, linesFrom, if_pos ⟨outside, lineBreak⟩]
        rfl
      · have last : ∃ token, tokens.getLast? = some token ∧ token.kind = .lineBreak := by
          rwa [List.getLast?_cons_of_ne_nil nothing] at last
        rw [List.foldl_cons] at closed
        by_cases ends : depth = 0 ∧ token.kind = .lineBreak
        · have outside : depthAfter depth token.kind = 0 := by rw [ends.1, ends.2]; rfl
          rw [outside] at closed
          obtain ⟨lines, broken, same⟩ := ih [] last closed
          refine ⟨⟨line, true⟩ :: lines, List.forall_mem_cons.2 ⟨rfl, broken⟩, fun more => ?_⟩
          rw [List.cons_append, linesFrom, if_pos ends, same, List.cons_append]
        · obtain ⟨lines, broken, same⟩ := ih (line ++ [token]) last closed
          refine ⟨lines, broken, fun more => ?_⟩
          rw [List.cons_append, linesFrom, if_neg ends, same]

/-- The last line is one that has not been ended. -/
theorem linesFrom_eq_append (depth : Nat) (line tokens : List Token) :
    ∃ lines last, linesFrom depth line tokens = lines ++ [⟨last, false⟩] := by
  induction tokens generalizing depth line with
  | nil => exact ⟨[], line, rfl⟩
  | cons token tokens ih =>
      rw [linesFrom]
      split
      · obtain ⟨lines, last, same⟩ := ih 0 []
        exact ⟨⟨line, true⟩ :: lines, last, by rw [same, List.cons_append]⟩
      · exact ih _ _

/-! ## Stacks of indentations -/

/-- The indentations of open blocks, innermost first, and the outermost level. -/
structure Stack (levels : List Nat) : Prop where
  sorted : levels.Pairwise (· > ·)
  outermost : levels.getLast? = some 0

namespace Stack

variable {levels : List Nat} {column : Nat}

theorem single : Stack [0] := ⟨List.pairwise_singleton _ _, rfl⟩

theorem tail {level exposed : Nat} {outer : List Nat} (stack : Stack (level :: exposed :: outer)) :
    Stack (exposed :: outer) :=
  ⟨(List.pairwise_cons.1 stack.sorted).2, stack.outermost⟩

theorem push (stack : Stack levels) (deeper : levels.headD 0 < column) : Stack (column :: levels) := by
  obtain ⟨sorted, outermost⟩ := stack
  cases levels with
  | nil => cases outermost
  | cons level outer =>
      refine ⟨List.pairwise_cons.2 ⟨fun other mem => ?_, sorted⟩, outermost⟩
      rcases List.mem_cons.1 mem with rfl | mem
      · exact deeper
      · exact Nat.lt_trans ((List.pairwise_cons.1 sorted).1 other mem) deeper

/-- Every level but the outermost is closed before a line that is not indented. -/
theorem dedentTo_zero (stack : Stack levels) :
    dedentTo 0 levels = (List.replicate (levels.length - 1) (mark .dedent), [0]) := by
  obtain ⟨blocks, rfl⟩ := List.getLast?_eq_some_iff.1 stack.outermost
  rw [Layout.dedentTo_zero stack.sorted, List.length_append, List.length_singleton,
    Nat.add_sub_cancel]

end Stack

/-! ## The tokens of whole lines -/

theorem lined_dedents (owed : Nat) :
    Lined false owed ((visible (List.replicate owed (mark .dedent))).map Prod.fst) := by
  induction owed with
  | zero => exact .finished
  | succ owed ih => exact .dedent ih

/-- The tokens of a line, and its end. -/
theorem lined_row {owed : Nat} {tokens : List Token} {kinds : List Kind}
    (plain : ∀ token ∈ tokens, token.kind.isLayout = false) (lined : Lined false owed kinds) :
    Lined true owed ((visible (pieces tokens)).map Prod.fst ++ .statementBreak :: kinds) := by
  induction tokens with
  | nil => exact .broken lined
  | cons token tokens ih =>
      obtain ⟨first, plain⟩ := List.forall_mem_cons.1 plain
      rw [pieces_cons]
      split
      · by_cases invalid : token.kind = .invalid
        · rw [visible, List.filter_cons, if_neg (by simpa using invalid)]
          exact ih plain
        · rw [visible, List.filter_cons, if_pos (by simpa using invalid)]
          exact .plain first (ih plain)
      · exact ih plain

theorem dedentTo_lined (column : Nat) {levels : List Nat} (stack : Stack levels) :
    Stack (dedentTo column levels).2 ∧ ∀ kinds, Lined true ((dedentTo column levels).2.length - 1) kinds →
      Lined false (levels.length - 1) ((visible (dedentTo column levels).1).map Prod.fst ++ kinds) := by
  fun_induction dedentTo column levels with
  | case1 level exposed outer shallow between =>
      exact ⟨stack.tail, fun kinds row => .inconsistent row⟩
  | case2 level exposed outer shallow between closed left same ih =>
      obtain ⟨stack', lined⟩ := ih stack.tail
      rw [same] at stack' lined
      exact ⟨stack', fun kinds row => .dedent (lined kinds row)⟩
  | case3 => exact ⟨stack, fun kinds row => row.loosen⟩
  | case4 => exact ⟨stack, fun kinds row => row.loosen⟩

theorem indentTo_lined (column : Nat) {levels : List Nat} (stack : Stack levels) :
    Stack (indentTo column levels).2 ∧ ∀ kinds, Lined true ((indentTo column levels).2.length - 1) kinds →
      Lined false (levels.length - 1) ((visible (indentTo column levels).1).map Prod.fst ++ kinds) := by
  unfold indentTo
  split
  · rename_i deeper
    refine ⟨stack.push deeper, fun kinds row => .indent ?_⟩
    have some : 0 < levels.length := List.length_pos_iff.2 (by
      rintro rfl
      cases stack.outermost)
    rw [Nat.sub_add_cancel some]
    exact row
  · exact dedentTo_lined column stack

/-- What whole lines are given by the layout, and the levels after them. -/
structure Laid (levels : List Nat) (lines : List Line) (given : List Piece) (levels' : List Nat) :
    Prop where
  stack : Stack levels'
  first : ∀ more, layoutLines levels (lines ++ more) = given ++ layoutLines levels' more
  lined : ∀ kinds, Lined false (levels'.length - 1) kinds →
    Lined false (levels.length - 1) ((visible given).map Prod.fst ++ kinds)
  /-- Nothing that is invalid comes from anywhere but the lines. -/
  invalid : given.filter (·.1 = .invalid) =
    (lines.flatMap (pieces ·.tokens)).filter (·.1 = .invalid)
  /-- The last line with code has been ended. -/
  ended : given = [] ∨ given.getLast? = some (mark .statementBreak)

theorem invalid_dedentTo (column : Nat) (levels : List Nat) :
    (dedentTo column levels).1.filter (·.1 = .invalid) = [] := by
  fun_induction dedentTo column levels with
  | case1 => rfl
  | case2 level exposed outer shallow between closed left same ih =>
      rw [same] at ih
      exact ih
  | case3 => rfl
  | case4 => rfl

theorem invalid_indentTo (column : Nat) (levels : List Nat) :
    (indentTo column levels).1.filter (·.1 = .invalid) = [] := by
  unfold indentTo
  split
  · rfl
  · exact invalid_dedentTo column levels

theorem laid_lines {levels : List Nat} (stack : Stack levels) {lines : List Line}
    (broken : ∀ line ∈ lines, line.broken = true)
    (plain : ∀ line ∈ lines, ∀ token ∈ line.tokens, token.kind.isLayout = false) :
    ∃ given levels', Laid levels lines given levels' := by
  induction lines generalizing levels with
  | nil => exact ⟨[], levels, stack, fun _ => rfl, fun _ => id, rfl, .inl rfl⟩
  | cons line lines ih =>
      obtain ⟨ended, broken⟩ := List.forall_mem_cons.1 broken
      obtain ⟨plainHere, plain⟩ := List.forall_mem_cons.1 plain
      cases code : line.hasCode with
      | false =>
          obtain ⟨given, levels', laid⟩ := ih stack broken plain
          have none : pieces line.tokens = [] := pieces_eq_nil (by simpa [Line.hasCode] using code)
          refine ⟨given, levels', laid.stack, fun more => ?_, laid.lined, ?_, laid.ended⟩
          · rw [List.cons_append, layoutLines, if_neg (by simp [code]), if_pos ended, laid.first]
          · rw [List.flatMap_cons, none, List.nil_append, laid.invalid]
      | true =>
          obtain ⟨stack', opened⟩ := indentTo_lined line.indentation stack
          have moved := invalid_indentTo line.indentation levels
          cases indented : indentTo line.indentation levels with
          | mk moves left =>
              rw [indented] at stack' opened moved
              obtain ⟨given, levels', laid⟩ := ih stack' broken plain
              refine ⟨moves ++ pieces line.tokens ++ [mark .statementBreak] ++ given, levels', laid.stack,
                fun more => ?_, fun kinds lined => ?_, ?_, .inr ?_⟩
              · rw [List.cons_append, layoutLines, if_pos code, indented]
                dsimp only
                rw [if_pos ended, laid.first]
                simp only [List.append_assoc]
              · have row := opened _ (lined_row plainHere (laid.lined kinds lined))
                have same : (visible [mark .statementBreak]).map Prod.fst = [.statementBreak] := rfl
                simp only [visible_append, List.map_append, same, List.append_assoc]
                exact row
              · have none : [mark .statementBreak].filter (·.1 = .invalid) = [] := rfl
                simp only [List.filter_append, moved, none, laid.invalid, List.flatMap_cons,
                  List.nil_append, List.append_nil]
              · rcases laid.ended with rfl | last
                · simp
                · rw [List.getLast?_append, last]
                  rfl

/-! ## What comes after whole lines -/

/-- If the first line with code is not indented, then all blocks are closed before it. -/
theorem layoutLines_anew {levels : List Nat} (stack : Stack levels) {lines : List Line}
    (anew : ∀ line, lines.find? Line.hasCode = some line → line.indentation = 0)
    (last : ∃ before line, lines = before ++ [⟨line, false⟩]) :
    layoutLines levels lines =
      List.replicate (levels.length - 1) (mark .dedent) ++ layoutLines [0] lines := by
  induction lines with
  | nil =>
      obtain ⟨before, line, is⟩ := last
      exact absurd is.symm (by simp)
  | cons line lines ih =>
      cases code : line.hasCode with
      | true =>
          have top := anew line (List.find?_cons_of_pos code)
          rw [layoutLines, layoutLines, if_pos code, if_pos code, top]
          have closed : indentTo 0 levels = _ := (if_neg (Nat.not_lt_zero _)).trans stack.dedentTo_zero
          rw [closed]
          simp [indentTo, dedentTo]
      | false =>
          have none : ¬line.hasCode = true := by simp [code]
          rw [layoutLines, layoutLines, if_neg none, if_neg none]
          split
          · rename_i broken
            refine ih (fun line is => anew line ?_) ?_
            · rw [List.find?_cons_of_neg none, is]
            · obtain ⟨before, open', is⟩ := last
              cases before with
              | nil =>
                  obtain ⟨rfl, -⟩ := List.cons.inj is
                  cases broken
              | cons first before => exact ⟨before, open', (List.cons.inj is).2⟩
          · simp

theorem mem_linesFrom {depth : Nat} {line tokens : List Token} :
    ∀ made ∈ linesFrom depth line tokens, ∀ token ∈ made.tokens, token ∈ line ++ tokens := by
  induction tokens generalizing depth line with
  | nil => simp [linesFrom]
  | cons next tokens ih =>
      rw [linesFrom]
      intro made mem token on
      split at mem
      · rcases List.mem_cons.1 mem with rfl | mem
        · exact List.mem_append_left _ on
        · exact List.mem_append_right _ (List.mem_cons_of_mem _ (ih made mem token on))
      · have on := ih made mem token on
        rwa [List.append_assoc, List.singleton_append] at on

/-- The brackets that are open after some tokens. -/
def openBrackets (tokens : List Token) : Nat :=
  tokens.foldl (fun depth token => depthAfter depth token.kind) 0

/-- The last token of a text is the end of a line, and no bracket is open there. -/
structure WholeLines (text : List Char) : Prop where
  last : ∃ token, (Cursor.ofText text).read.getLast? = some token ∧ token.kind = .lineBreak
  closed : openBrackets (Cursor.ofText text).read = 0

/-- If there is a token in a text that is no trivia, then the first one is not indented, and nothing
that would continue a statement before it. -/
structure BeginsAnew (text : List Char) : Prop where
  level : ∀ line, (linesFrom 0 [] (Cursor.ofText text).read).find? Line.hasCode = some line →
    line.indentation = 0
  apart : ∀ token, (Cursor.ofText text).read.find? isCode = some token →
    token.kind ∉ [.invalid, .semicolon, .reserved .elifWord, .reserved .elseWord]

/-- The last piece of whole lines with all blocks closed is one of the layout. -/
theorem Laid.ended_dedents {lines : List Line} {given : List Piece} {levels : List Nat}
    (laid : Laid [0] lines given levels) (owed : Nat) :
    given ++ List.replicate owed (mark .dedent) = [] ∨ ∃ piece,
      (given ++ List.replicate owed (mark .dedent)).getLast? = some piece ∧ piece.1 ≠ .invalid := by
  cases owed with
  | zero =>
      rw [List.replicate_zero, List.append_nil]
      exact laid.ended.imp_right fun last => ⟨_, last, by decide⟩
  | succ owed =>
      refine .inr ⟨mark .dedent, ?_, by decide⟩
      rw [List.replicate_succ', ← List.append_assoc, List.getLast?_concat]

theorem WholeLines.lastIsBreak {text : List Char} (whole : WholeLines text) : LastIsBreak text := by
  obtain ⟨token, last, lineBreak⟩ := whole.last
  rw [Cursor.read, List.getLast?_map] at last
  obtain ⟨scanned, found, rfl⟩ := Option.map_eq_some_iff.1 last
  refine ⟨scanned.content, ?_, lineBreak⟩
  rw [contents, List.getLast?_map, found]
  rfl

theorem map_piece_read (text : List Char) :
    (Cursor.ofText text).read.map Token.piece = (contents text).map Prod.fst := by
  rw [Cursor.read, contents, List.map_map, List.map_map]
  rfl

theorem read_ne_nil {text : List Char} (notEmpty : text ≠ []) : (Cursor.ofText text).read ≠ [] := by
  intro empty
  have nothing := map_piece_read text
  rw [empty, List.map_nil] at nothing
  exact contents_ne_nil notEmpty (List.map_eq_nil_iff.1 nothing.symm)

/-- Invalid tokens are code. -/
theorem filter_pieces (tokens : List Token) : (pieces tokens).filter (·.1 = .invalid) =
    (tokens.map Token.piece).filter (·.1 = .invalid) := by
  rw [pieces, List.filter_map, List.filter_map, List.filter_filter]
  refine congrArg (List.map Token.piece) (List.filter_congr fun token _ => ?_)
  refine Bool.and_eq_left_iff_imp.2 fun is => ?_
  have invalid : token.kind = .invalid := of_decide_eq_true is
  rw [isCode, invalid]
  rfl

/-- What is made of whole lines, apart from the end of the last statement: complete lines with all their
blocks, which are the same when something new comes after them. -/
structure Complete (text : List Char) (given : List Piece) : Prop where
  lined : Lined false 0 ((visible given).map Prod.fst)
  closed : Stock.Closed ⟨given, messages text⟩
  alone : pieces (tokenize text).tokens = given ++ [mark .statementBreak]
  followed : ∀ more, BeginsAnew more → more ≠ [] →
    pieces (tokenize (text ++ more)).tokens = given ++ pieces (tokenize more).tokens

theorem WholeLines.exists_complete {text : List Char} (whole : WholeLines text) :
    ∃ given, Complete text given := by
  obtain ⟨lines, broken, split⟩ := linesFrom_append_line [] whole.last whole.closed
  have all := split []
  rw [List.append_nil, linesFrom] at all
  have plain : ∀ line ∈ lines, ∀ token ∈ line.tokens, token.kind.isLayout = false := by
    intro line mem token on
    have among := mem_linesFrom line (all ▸ List.mem_append_left _ mem) token on
    exact Cursor.isLayout_of_mem_scan _ token among
  obtain ⟨given, levels, laid⟩ := laid_lines .single broken plain
  have follows (tokens : List Token) (level : ∀ line,
      (linesFrom 0 [] tokens).find? Line.hasCode = some line → line.indentation = 0) :
      layoutLines [0] (linesFrom 0 [] ((Cursor.ofText text).read ++ tokens)) =
        given ++ List.replicate (levels.length - 1) (mark .dedent) ++
          layoutLines [0] (linesFrom 0 [] tokens) := by
    rw [split, laid.first, layoutLines_anew laid.stack level, List.append_assoc]
    obtain ⟨before, line, is⟩ := linesFrom_eq_append 0 [] tokens
    exact ⟨before, line, is⟩
  have notEmpty : (Cursor.ofText text).read.isEmpty = false := by
    obtain ⟨token, last, -⟩ := whole.last
    cases read : (Cursor.ofText text).read with
    | nil => simp [read] at last
    | cons => rfl
  refine ⟨given ++ List.replicate (levels.length - 1) (mark .dedent), ?_, ⟨?_, laid.ended_dedents _⟩,
    ?_, fun more anew filled => ?_⟩
  · rw [visible_append, List.map_append]
    exact laid.lined _ (lined_dedents _)
  · have none : (List.replicate (levels.length - 1) (mark .dedent)).filter (·.1 = .invalid) = [] :=
      List.filter_eq_nil_iff.2 fun piece mem => by simp [List.eq_of_mem_replicate mem, mark]
    have same := pieces_linesFrom 0 [] (Cursor.ofText text).read
    rw [all, List.flatMap_append, List.nil_append] at same
    change _ ++ [] = _ at same
    rw [List.append_nil] at same
    dsimp only
    rw [List.filter_append, none, List.append_nil, laid.invalid, same, filter_pieces, map_piece_read,
      length_messages]
  · have alone := follows [] (by simp [linesFrom, Line.hasCode])
    rw [List.append_nil] at alone
    rw [pieces_read, lineByLine, alone, if_neg (by simp [notEmpty])]
    show _ ++ [] ++ [mark .statementBreak] = _
    rw [List.append_nil]
  · have tokens : (Cursor.ofText (text ++ more)).read.map Token.piece =
        ((Cursor.ofText text).read ++ (Cursor.ofText more).read).map Token.piece := by
      rw [List.map_append, map_piece_read, map_piece_read, map_piece_read,
        contents_append whole.lastIsBreak, List.map_append]
    have more' : ¬(Cursor.ofText more).read.isEmpty = true := by simpa using read_ne_nil filled
    have both : ¬((Cursor.ofText text).read ++ (Cursor.ofText more).read).isEmpty = true := by
      intro empty
      rw [(List.append_eq_nil_iff.1 (List.isEmpty_iff.1 empty)).1] at notEmpty
      cases notEmpty
    rw [pieces_read, lineByLine_congr tokens, pieces_read, lineByLine, lineByLine,
      follows _ anew.level, if_neg both, if_neg more', List.append_assoc]

/-- Where the first line with code is not indented, its first token is the first of all. -/
theorem head?_layoutLines {depth : Nat} {line tokens : List Token} (level : ∀ made,
    (linesFrom depth line tokens).find? Line.hasCode = some made → made.indentation = 0) :
    (layoutLines [0] (linesFrom depth line tokens) ++ [mark .statementBreak]).head? =
      (pieces (line ++ tokens) ++ [mark .statementBreak]).head? := by
  have first {code : Line} (has : code.hasCode = true) (top : code.indentation = 0) (lines : List Line)
      (more : List Token) :
      (layoutLines [0] (code :: lines) ++ [mark .statementBreak]).head? =
        (pieces (code.tokens ++ more) ++ [mark .statementBreak]).head? := by
    have some : pieces code.tokens ≠ [] := by
      obtain ⟨token, mem, is⟩ := List.any_eq_true.1 has
      have here : token.piece ∈ pieces code.tokens :=
        List.mem_map.2 ⟨token, List.mem_filter.2 ⟨mem, is⟩, rfl⟩
      exact List.ne_nil_of_mem here
    obtain ⟨piece, others, parts⟩ := List.exists_cons_of_ne_nil some
    rw [layoutLines, if_pos has, top, pieces_append, parts]
    rfl
  have none {code : Line} (has : ¬code.hasCode = true) : pieces code.tokens = [] :=
    pieces_eq_nil (by simpa [Line.hasCode] using has)
  induction tokens generalizing depth line with
  | nil =>
      rw [linesFrom] at level ⊢
      by_cases has : Line.hasCode ⟨line, false⟩ = true
      · exact first has (level _ (List.find?_cons_of_pos has)) [] []
      · rw [layoutLines, if_neg has, if_neg Bool.false_ne_true, List.append_nil, none has]
        rfl
  | cons token tokens ih =>
      rw [linesFrom] at level ⊢
      split at level
      · rename_i ends
        rw [if_pos ends]
        by_cases has : Line.hasCode ⟨line, true⟩ = true
        · exact first has (level _ (List.find?_cons_of_pos has)) _ _
        · have trivia : isCode token = false := by rw [isCode, ends.2]; rfl
          rw [List.find?_cons_of_neg has] at level
          rw [layoutLines, if_neg has, if_pos rfl, ih level, List.nil_append, pieces_append, none has,
            pieces_cons, if_neg (by simp [trivia]), List.nil_append]
      · rename_i goesOn
        rw [if_neg goesOn, ih level, List.append_assoc, List.singleton_append]

/-- Nothing that begins anew begins with what would continue a statement. -/
theorem BeginsAnew.head {text : List Char} (anew : BeginsAnew text) (notEmpty : text ≠ []) :
    ∃ piece rest, pieces (tokenize text).tokens = piece :: rest ∧
      piece.1 ∉ [.invalid, .semicolon, .reserved .elifWord, .reserved .elseWord, .indent, .dedent] := by
  have head := head?_layoutLines anew.level
  rw [List.nil_append, List.head?_append (l := pieces _), pieces, List.head?_map, List.head?_filter] at head
  rw [pieces_read, lineByLine, if_neg (by simpa using read_ne_nil notEmpty)]
  cases first : (Cursor.ofText text).read.find? isCode with
  | none =>
      rw [first] at head
      obtain ⟨rest, parts⟩ := List.head?_eq_some_iff.1 head
      exact ⟨_, rest, parts, by decide⟩
  | some token =>
      rw [first] at head
      obtain ⟨rest, parts⟩ := List.head?_eq_some_iff.1 head
      have apart := anew.apart token first
      have plain := Cursor.isLayout_of_mem_scan _ token (List.mem_of_find?_eq_some first)
      refine ⟨_, rest, parts, fun mem => ?_⟩
      simp only [List.mem_cons, List.not_mem_nil, or_false] at mem apart
      rcases mem with is | is | is | is | is | is
      · exact apart (.inl is)
      · exact apart (.inr (.inl is))
      · exact apart (.inr (.inr (.inl is)))
      · exact apart (.inr (.inr (.inr is)))
      · rw [show token.kind = _ from is] at plain
        cases plain
      · rw [show token.kind = _ from is] at plain
        cases plain

end Layout
end StarlarkSyntax
