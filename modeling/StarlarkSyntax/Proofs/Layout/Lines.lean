import Mathlib.Data.List.TakeWhile
import StarlarkSyntax.Layout
/-!
# Indentation, line by line

What the layout pass is meant to do, said of whole lines. The tokens that were read from a text are
split into logical lines (`linesFrom`), and the lines that have code on them are indented and
dedented one after another (`layoutLines`) with a stack of indentations that starts as `[0]`. White
space and comments are left out of the result, so each token is given by its kind and its body
(`Piece`).

Nothing here merges white space, puts anything off or inserts anything into what has been put out
already; that the layout pass does all of this and comes to the same is the subject of
`StarlarkSyntax.Proofs.Layout.LineByLine`.
-/

set_option autoImplicit false

namespace StarlarkSyntax.Layout

/-! ## Pieces -/

/-- A token without its place in the text. -/
abbrev Piece := Kind × List Char

/-- A piece of no width. -/
def mark (kind : Kind) : Piece := (kind, [])

/-- Is the token neither white space nor a comment? -/
def isCode (token : Token) : Bool := !token.kind.isTrivia

/-- What some tokens are without white space and comments. -/
def pieces (tokens : List Token) : List Piece :=
  (tokens.filter isCode).map fun token => (token.kind, token.body)

@[simp] theorem pieces_nil : pieces [] = [] := rfl

@[simp] theorem pieces_append (s t : List Token) : pieces (s ++ t) = pieces s ++ pieces t := by
  simp [pieces]

theorem pieces_cons (token : Token) (tokens : List Token) :
    pieces (token :: tokens) =
      if isCode token then (token.kind, token.body) :: pieces tokens else pieces tokens := by
  unfold pieces
  rw [List.filter_cons]
  split <;> rfl

theorem pieces_eq_nil {tokens : List Token} (trivia : ∀ token ∈ tokens, isCode token = false) :
    pieces tokens = [] := by
  rw [pieces, List.filter_eq_nil_iff.2 (by simpa using trivia), List.map_nil]

/-! ## Lines -/

/-- A logical line, without the line break that ends it if there is one. -/
structure Line where
  tokens : List Token
  broken : Bool

/-- The logical lines of some tokens, where a line has begun already and so many brackets are open.
Only a line break outside brackets ends a line. -/
def linesFrom : Nat → List Token → List Token → List Line
  | _, line, [] => [⟨line, false⟩]
  | depth, line, token :: tokens =>
    if depth = 0 ∧ token.kind = .lineBreak then ⟨line, true⟩ :: linesFrom 0 [] tokens
    else linesFrom (depthAfter depth token.kind) (line ++ [token]) tokens

/-- The column that some white space leads to from another one. Form feeds and the line feeds of
joined lines start over. -/
def columnAfter (column : Nat) : List Char → Nat
  | [] => column
  | ' ' :: text => columnAfter (column + 1) text
  | '\t' :: text => columnAfter (column + (8 - column % 8)) text
  | '\n' :: text | '\x0c' :: text => columnAfter 0 text
  | _ :: text => columnAfter column text

namespace Line

/-- Is there code on the line? -/
def hasCode (line : Line) : Bool := line.tokens.any isCode

/-- The width of the white space that the line begins with. -/
def indentation (line : Line) : Nat :=
  columnAfter 0 (Token.textOf (line.tokens.takeWhile (·.kind == .space)))

end Line

/-! ## The stack of indentations -/

/-- What closes the levels that are deeper than a line, and the levels that stay. -/
def dedentTo (column : Nat) : List Nat → List Piece × List Nat
  | level :: exposed :: outer =>
    if column < level then
      if exposed < column then ([mark .inconsistentDedent, mark .dedent], exposed :: outer)
      else
        let (closed, left) := dedentTo column (exposed :: outer)
        (mark .dedent :: closed, left)
    else ([], level :: exposed :: outer)
  | levels => ([], levels)

/-- What opens or closes levels before a line with code on it, and the levels after that. -/
def indentTo (column : Nat) (levels : List Nat) : List Piece × List Nat :=
  if levels.headD 0 < column then ([mark .indent], column :: levels) else dedentTo column levels

/-- The pieces of some lines. If the last one has no code on it, the text ended with a line break,
which closes all levels. -/
def layoutLines (levels : List Nat) : List Line → List Piece
  | [] => []
  | line :: lines =>
    if line.hasCode then
      let (moved, levels) := indentTo line.indentation levels
      let ended := if line.broken then [mark .statementBreak] else []
      moved ++ pieces line.tokens ++ ended ++ layoutLines levels lines
    else if line.broken then layoutLines levels lines
    else List.replicate (levels.length - 1) (mark .dedent)

/-- The pieces of a text, given the tokens that were read from it: those of its lines, and the end of
the last statement. -/
def lineByLine (tokens : List Token) : List Piece :=
  layoutLines [0] (linesFrom 0 [] tokens) ++
    if tokens.isEmpty then [] else [mark .statementBreak]

/-! ## Lines one token at a time -/

theorem foldl_measureChar (column : Nat) (text : List Char) :
    text.foldl measureChar column = columnAfter column text := by
  fun_induction columnAfter column text with
  | case1 column => rfl
  | case2 column text ih => exact ih
  | case3 column text ih =>
      rw [← ih]
      show text.foldl measureChar ((column / 8 + 1) * 8) = _
      have : (column / 8 + 1) * 8 = column + (8 - column % 8) := by omega
      rw [this]
  | case4 column text ih => exact ih
  | case5 column text ih => exact ih
  | case6 column c text notSpace notTab notLineFeed notFormFeed ih =>
      rw [← ih, List.foldl_cons]
      have same : measureChar column c = column := by
        rw [measureChar, if_neg notSpace, if_neg notTab, if_neg]
        simp only [Bool.or_eq_true, decide_eq_true_eq, not_or]
        exact ⟨notLineFeed, notFormFeed⟩
      rw [same]

theorem columnAfter_append (column : Nat) (text more : List Char) :
    columnAfter column (text ++ more) = columnAfter (columnAfter column text) more := by
  simp only [← foldl_measureChar, List.foldl_append]

theorem measure_eq (text : List Char) : measure text = columnAfter 0 text :=
  foldl_measureChar 0 text

theorem isCode_of_blank {token : Token} (blank : isBlank token = true) : isCode token = false := by
  simp only [isBlank, Bool.or_eq_true, decide_eq_true_eq] at blank
  rcases blank with kind | kind <;> simp [isCode, kind, Kind.isTrivia]

theorem depthAfter_of_not_code {token : Token} (notCode : isCode token = false) (depth : Nat) :
    depthAfter depth token.kind = depth := by
  cases kind : token.kind <;> simp_all [isCode, Kind.isTrivia, depthAfter]

theorem linesFrom_of_ne {token : Token} (goesOn : token.kind ≠ .lineBreak) (depth : Nat)
    (line tokens : List Token) : linesFrom depth line (token :: tokens) =
      linesFrom (depthAfter depth token.kind) (line ++ [token]) tokens := by
  rw [linesFrom, if_neg fun ends => goesOn ends.2]

/-- White space that ends no line goes on the line. -/
theorem linesFrom_append (depth : Nat) (line : List Token) {run : List Token}
    (blank : ∀ token ∈ run, isBlank token = true)
    (goesOn : depth ≠ 0 ∨ ∀ token ∈ run, token.kind ≠ .lineBreak) (tokens : List Token) :
    linesFrom depth line (run ++ tokens) = linesFrom depth (line ++ run) tokens := by
  induction run generalizing line with
  | nil => simp
  | cons token run ih =>
      obtain ⟨first, blank⟩ := List.forall_mem_cons.1 blank
      have goesOn' : depth ≠ 0 ∨ ∀ token ∈ run, token.kind ≠ .lineBreak :=
        goesOn.imp_right fun all => (List.forall_mem_cons.1 all).2
      rw [List.cons_append, linesFrom, if_neg, depthAfter_of_not_code (isCode_of_blank first), ih _ blank goesOn',
        List.append_assoc, List.singleton_append]
      rintro ⟨outside, lineBreak⟩
      rcases goesOn with inside | all
      · exact inside outside
      · exact (List.forall_mem_cons.1 all).1 lineBreak

/-- The white space after the last line break. -/
def lastLine (run : List Token) : List Token :=
  (run.reverse.takeWhile (·.kind ≠ .lineBreak)).reverse

theorem lastLine_cons_of_mem (token : Token) {run : List Token}
    (more : ∃ token ∈ run, token.kind = .lineBreak) : lastLine (token :: run) = lastLine run := by
  obtain ⟨lineBreak, mem, is⟩ := more
  unfold lastLine
  rw [List.reverse_cons, List.takeWhile_append, if_neg]
  intro all
  have whole := (List.takeWhile_prefix _).eq_of_length all
  have goesOn := List.mem_takeWhile_imp (whole ▸ List.mem_reverse.2 mem)
  simp [is] at goesOn

theorem lastLine_cons_of_lineBreak {token : Token} {run : List Token}
    (lineBreak : token.kind = .lineBreak) (goesOn : ∀ token ∈ run, token.kind ≠ .lineBreak) :
    lastLine (token :: run) = run := by
  have whole : run.reverse.takeWhile (·.kind ≠ .lineBreak) = run.reverse :=
    List.takeWhile_eq_self_iff.2 fun token mem => by simpa using goesOn token (by simpa using mem)
  unfold lastLine
  rw [List.reverse_cons, List.takeWhile_append, whole, if_pos rfl]
  simp [lineBreak]

theorem goesOn_of_mem_lastLine {run : List Token} {token : Token} (mem : token ∈ lastLine run) :
    token.kind ≠ .lineBreak := by
  have := List.mem_takeWhile_imp (List.mem_reverse.1 mem)
  simpa using this

namespace Line

theorem hasCode_append (line more : List Token) (broken : Bool) :
    hasCode ⟨line ++ more, broken⟩ = (hasCode ⟨line, broken⟩ || more.any isCode) := by
  simp [hasCode]

/-- What stands after code does not indent a line. -/
theorem indentation_append_of_hasCode {line : List Token} {broken : Bool} (more : List Token)
    (code : hasCode ⟨line, broken⟩ = true) :
    indentation ⟨line ++ more, broken⟩ = indentation ⟨line, broken⟩ := by
  obtain ⟨token, mem, isCode⟩ := List.any_eq_true.1 code
  have stops : (line.takeWhile (·.kind == .space)).length ≠ line.length := by
    intro all
    have whole := (List.takeWhile_prefix _).eq_of_length all
    have space := List.mem_takeWhile_imp (whole ▸ mem)
    simp_all [Layout.isCode, Kind.isTrivia]
  simp only [indentation, List.takeWhile_append, if_neg stops]

/-- Nor does anything after a token that is no white space. -/
theorem indentation_append_of_ne {token : Token} (notSpace : token.kind ≠ .space)
    (line : List Token) (broken : Bool) :
    indentation ⟨line ++ [token], broken⟩ = indentation ⟨line, broken⟩ := by
  simp only [indentation, List.takeWhile_append]
  split
  · rename_i all
    have whole := (List.takeWhile_prefix _).eq_of_length all
    simp [notSpace, whole]
  · rfl

end Line

/-- White space at the end of a line makes no difference. -/
theorem layoutLines_trailing {token : Token} (notCode : isCode token = false) (levels : List Nat)
    (line : List Token) (broken : Bool) (lines : List Line) :
    layoutLines levels (⟨line ++ [token], broken⟩ :: lines) =
      layoutLines levels (⟨line, broken⟩ :: lines) := by
  have same : Line.hasCode ⟨line ++ [token], broken⟩ = Line.hasCode ⟨line, broken⟩ := by
    rw [Line.hasCode_append]
    simp [notCode]
  have none : pieces [token] = [] := pieces_eq_nil (by simpa using notCode)
  unfold layoutLines
  rw [same]
  split
  · rename_i code
    simp only [Line.indentation_append_of_hasCode [token] code, pieces_append, none, List.append_nil]
  · rfl

/-- White space with a line break in it ends a line that no bracket is open on, and only what comes
after the last line break is on the next line with code. -/
theorem layoutLines_broken (levels : List Nat) (line : List Token) {run : List Token}
    (blank : ∀ token ∈ run, isBlank token = true)
    (broken : ∃ token ∈ run, token.kind = .lineBreak) (tokens : List Token) :
    layoutLines levels (linesFrom 0 line (run ++ tokens)) =
      layoutLines levels (⟨line, true⟩ :: linesFrom 0 (lastLine run) tokens) := by
  induction run generalizing levels line with
  | nil => simp at broken
  | cons token run ih =>
      obtain ⟨first, blank⟩ := List.forall_mem_cons.1 blank
      have notCode := isCode_of_blank first
      by_cases more : ∃ token ∈ run, token.kind = .lineBreak
      · have last := lastLine_cons_of_mem token more
        by_cases lineBreak : token.kind = .lineBreak
        · rw [List.cons_append, linesFrom, if_pos ⟨rfl, lineBreak⟩, last]
          have empty (levels : List Nat) : layoutLines levels (linesFrom 0 [] (run ++ tokens)) =
              layoutLines levels (linesFrom 0 (lastLine run) tokens) := ih levels [] blank more
          simp only [layoutLines, empty]
        · rw [List.cons_append, linesFrom_of_ne lineBreak, depthAfter_of_not_code notCode,
            ih _ _ blank more, layoutLines_trailing notCode, last]
      · have lineBreak : token.kind = .lineBreak := by
          obtain ⟨token', mem, is⟩ := broken
          rcases List.mem_cons.1 mem with rfl | mem
          · exact is
          · exact absurd ⟨token', mem, is⟩ more
        have goesOn : ∀ token ∈ run, token.kind ≠ .lineBreak := fun token mem is =>
          more ⟨token, mem, is⟩
        have last := lastLine_cons_of_lineBreak lineBreak goesOn
        rw [List.cons_append, linesFrom, if_pos ⟨rfl, lineBreak⟩, last,
          linesFrom_append 0 [] blank (.inr goesOn), List.nil_append]

end StarlarkSyntax.Layout
