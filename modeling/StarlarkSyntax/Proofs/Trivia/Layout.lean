import StarlarkSyntax.Proofs.Append.Layout
import StarlarkSyntax.Proofs.Trivia.Reading
/-!
# Trivia and the layout

The layout looks at the white space before the first code of a line and at the line breaks outside brackets.
So inside brackets, where a line has code already, any trivia may stand in the place of any other
(`lineByLine_trivia`). Outside of them a line without code makes no difference (`lineByLine_line`).
-/

set_option autoImplicit false

namespace StarlarkSyntax.Layout

/-- Tokens that are not code leave the brackets open that are. -/
theorem depthAfter_of_trivia {token : Token} (trivia : isCode token = false) (depth : Nat) :
    depthAfter depth token.kind = depth := by
  unfold isCode at trivia
  cases is : token.kind with
  | opening | closing => rw [is] at trivia; cases trivia
  | _ => rfl

/-! ## Lines with the same code -/

/-- A line with code on it, and another one that is indented in the same way and has the same code. -/
structure Alike (line line' : List Token) : Prop where
  code : line.any isCode = true
  pieces : pieces line = pieces line'
  indentation : Line.indentation ⟨line, false⟩ = Line.indentation ⟨line', false⟩

theorem any_isCode (tokens : List Token) : tokens.any isCode = !(pieces tokens).isEmpty := by
  induction tokens with
  | nil => rfl
  | cons token tokens ih =>
      rw [List.any_cons, pieces_cons, ih]
      split
      · rw [‹isCode token = true›]
        rfl
      · rw [Bool.not_eq_true] at *
        rw [‹isCode token = false›, Bool.false_or]

/-- What comes after the first code of a line does not indent it. -/
theorem indentation_append {line : List Token} (code : line.any isCode = true) (more : List Token) :
    Line.indentation ⟨line ++ more, false⟩ = Line.indentation ⟨line, false⟩ := by
  have stopped : (line.takeWhile (·.kind == .space)).length ≠ line.length := by
    intro all
    have whole := (List.takeWhile_prefix _).eq_of_length all
    obtain ⟨token, mem, is⟩ := List.any_eq_true.1 code
    rw [← whole] at mem
    have space : (token.kind == .space) = true :=
      List.mem_takeWhile_imp (p := fun token : Token => token.kind == .space) mem
    rw [isCode, eq_of_beq space] at is
    cases is
  rw [Line.indentation, Line.indentation, List.takeWhile_append, if_neg stopped]

namespace Alike

variable {line line' : List Token}

theorem code' (alike : Alike line line') : line'.any isCode = true := by
  rw [any_isCode, ← alike.pieces, ← any_isCode, alike.code]

theorem append (alike : Alike line line') (more : List Token) : Alike (line ++ more) (line' ++ more) where
  code := by rw [List.any_append, alike.code, Bool.true_or]
  pieces := by rw [pieces_append, pieces_append, alike.pieces]
  indentation := by rw [indentation_append alike.code, indentation_append alike.code', alike.indentation]

theorem of_trivia (code : line.any isCode = true) {trivia trivia' : List Token}
    (none : ∀ token ∈ trivia, isCode token = false) (none' : ∀ token ∈ trivia', isCode token = false) :
    Alike (line ++ trivia) (line ++ trivia') where
  code := by rw [List.any_append, code, Bool.true_or]
  pieces := by rw [pieces_append, pieces_append, pieces_eq_nil none, pieces_eq_nil none']
  indentation := by rw [indentation_append code, indentation_append code]

theorem layoutLines_cons (alike : Alike line line') (broken : Bool) (levels : List Nat) (lines : List Line) :
    layoutLines levels (⟨line, broken⟩ :: lines) = layoutLines levels (⟨line', broken⟩ :: lines) := by
  have code : Line.hasCode ⟨line, broken⟩ = true := alike.code
  have code' : Line.hasCode ⟨line', broken⟩ = true := alike.code'
  have indented : Line.indentation ⟨line, broken⟩ = Line.indentation ⟨line', broken⟩ := alike.indentation
  rw [layoutLines, layoutLines, if_pos code, if_pos code', indented, alike.pieces]

/-- Lines that go on from lines that are alike have the same layout. -/
theorem layoutLines_linesFrom (alike : Alike line line') (depth : Nat) (levels : List Nat)
    (tokens : List Token) :
    layoutLines levels (linesFrom depth line tokens) = layoutLines levels (linesFrom depth line' tokens) := by
  induction tokens generalizing depth line line' with
  | nil => exact alike.layoutLines_cons false levels []
  | cons token tokens ih =>
      rw [linesFrom, linesFrom]
      split
      · exact alike.layoutLines_cons true levels _
      · exact ih (alike.append [token]) _

end Alike

/-! ## Lines around trivia -/

theorem linesFrom_trivia {depth : Nat} (inside : depth ≠ 0) (line : List Token) {trivia : List Token}
    (none : ∀ token ∈ trivia, isCode token = false) (tokens : List Token) :
    linesFrom depth line (trivia ++ tokens) = linesFrom depth (line ++ trivia) tokens := by
  induction trivia generalizing line with
  | nil => rw [List.nil_append, List.append_nil]
  | cons token trivia ih =>
      obtain ⟨first, none⟩ := List.forall_mem_cons.1 none
      rw [List.cons_append, linesFrom, if_neg (fun is => inside is.1), depthAfter_of_trivia first, ih _ none,
        List.append_assoc, List.singleton_append]

/-- A line without code is a line of its own. -/
theorem linesFrom_line (line : List Token) {trivia : List Token} (none : ∀ token ∈ trivia, isCode token = false)
    (inLine : ∀ token ∈ trivia, token.kind ≠ .lineBreak) {lineBreak : Token}
    (is : lineBreak.kind = .lineBreak) (tokens : List Token) :
    linesFrom 0 line (trivia ++ lineBreak :: tokens) = ⟨line ++ trivia, true⟩ :: linesFrom 0 [] tokens := by
  induction trivia generalizing line with
  | nil => rw [List.nil_append, linesFrom, if_pos ⟨rfl, is⟩, List.append_nil]
  | cons token trivia ih =>
      obtain ⟨first, none⟩ := List.forall_mem_cons.1 none
      obtain ⟨goesOn, inLine⟩ := List.forall_mem_cons.1 inLine
      rw [List.cons_append, linesFrom, if_neg (fun is => goesOn is.2), depthAfter_of_trivia first,
        ih _ none inLine, List.append_assoc, List.singleton_append]

/-- The brackets that are open after some tokens, from so many on. -/
def bracketsFrom (depth : Nat) (tokens : List Token) : Nat :=
  tokens.foldl (fun depth token => depthAfter depth token.kind) depth

/-- The lines before some tokens, and the line that they begin on; it has code if a bracket is open on it. -/
theorem exists_linesFrom_append (depth : Nat) (line tokens : List Token)
    (code : 0 < depth → line.any isCode = true) : ∃ lines last,
    (∀ more, linesFrom depth line (tokens ++ more) = lines ++ linesFrom (bracketsFrom depth tokens) last more) ∧
      (0 < bracketsFrom depth tokens → last.any isCode = true) := by
  induction tokens generalizing depth line with
  | nil => exact ⟨[], line, fun _ => rfl, code⟩
  | cons token tokens ih =>
      by_cases ends : depth = 0 ∧ token.kind = .lineBreak
      · obtain ⟨lines, last, split, code⟩ := ih 0 [] nofun
        have outside : bracketsFrom depth (token :: tokens) = bracketsFrom 0 tokens := by
          rw [bracketsFrom, List.foldl_cons, ends.1, ends.2]
          rfl
        rw [outside]
        exact ⟨⟨line, true⟩ :: lines, last,
          fun more => by rw [List.cons_append, linesFrom, if_pos ends, split, List.cons_append], code⟩
      · have code' : 0 < depthAfter depth token.kind → (line ++ [token]).any isCode = true := by
          intro inside
          rw [List.any_append, List.any_cons, List.any_nil, Bool.or_false, Bool.or_eq_true]
          cases is : isCode token with
          | true => exact .inr rfl
          | false =>
              rw [depthAfter_of_trivia is] at inside
              exact .inl (code inside)
        obtain ⟨lines, last, split, code⟩ := ih (depthAfter depth token.kind) (line ++ [token]) code'
        exact ⟨lines, last, fun more => by rw [List.cons_append, linesFrom, if_neg ends, split]; rfl, code⟩

theorem layoutLines_append_congr {lines tail tail' : List Line}
    (same : ∀ levels, layoutLines levels tail = layoutLines levels tail') (levels : List Nat) :
    layoutLines levels (lines ++ tail) = layoutLines levels (lines ++ tail') := by
  induction lines generalizing levels with
  | nil => exact same levels
  | cons line lines ih => simp only [List.cons_append, layoutLines, ih]

/-! ## All tokens -/

/-- Inside brackets any trivia may stand in the place of any other. -/
theorem lineByLine_trivia {before trivia trivia' : List Token} (inside : 0 < openBrackets before)
    (none : ∀ token ∈ trivia, isCode token = false) (none' : ∀ token ∈ trivia', isCode token = false)
    (after : List Token) :
    lineByLine (before ++ (trivia ++ after)) = lineByLine (before ++ (trivia' ++ after)) := by
  obtain ⟨lines, last, split, code⟩ := exists_linesFrom_append 0 [] before nofun
  have some : before ≠ [] := by
    rintro rfl
    exact Nat.lt_irrefl 0 inside
  have inside : 0 < bracketsFrom 0 before := inside
  have same (levels : List Nat) :
      layoutLines levels (linesFrom (bracketsFrom 0 before) last (trivia ++ after)) =
        layoutLines levels (linesFrom (bracketsFrom 0 before) last (trivia' ++ after)) := by
    rw [linesFrom_trivia (Nat.ne_of_gt inside) _ none, linesFrom_trivia (Nat.ne_of_gt inside) _ none']
    exact (Alike.of_trivia (code inside) none none').layoutLines_linesFrom _ _ _
  rw [lineByLine, lineByLine, split, split, layoutLines_append_congr same,
    if_neg (by simp [some]), if_neg (by simp [some])]

/-- Between lines, one without code makes no difference. -/
theorem lineByLine_line {before trivia after : List Token} {lineBreak : Token}
    (last : ∀ token ∈ before.getLast?, token.kind = .lineBreak)
    (closed : openBrackets before = 0) (none : ∀ token ∈ trivia, isCode token = false)
    (inLine : ∀ token ∈ trivia, token.kind ≠ .lineBreak) (is : lineBreak.kind = .lineBreak)
    (some : before ++ after ≠ []) :
    lineByLine (before ++ (trivia ++ lineBreak :: after)) = lineByLine (before ++ after) := by
  obtain ⟨lines, split⟩ : ∃ lines, ∀ more, linesFrom 0 [] (before ++ more) = lines ++ linesFrom 0 [] more := by
    cases is : before.getLast? with
    | none =>
        obtain rfl := List.getLast?_eq_none_iff.1 is
        exact ⟨[], fun _ => rfl⟩
    | some token =>
        obtain ⟨lines, -, split⟩ := linesFrom_append_line [] ⟨token, is, last token is⟩ closed
        exact ⟨lines, split⟩
  have bare : ¬Line.hasCode ⟨trivia, true⟩ = true := by
    rw [Line.hasCode, List.any_eq_true]
    rintro ⟨token, mem, code⟩
    rw [none token mem] at code
    cases code
  have same (levels : List Nat) : layoutLines levels (linesFrom 0 [] (trivia ++ lineBreak :: after)) =
      layoutLines levels (linesFrom 0 [] after) := by
    rw [linesFrom_line [] none inLine is, List.nil_append, layoutLines, if_neg bare, if_pos rfl]
  rw [lineByLine, lineByLine, split, split, layoutLines_append_congr same, if_neg (by simp),
    if_neg (by simpa using some)]

end StarlarkSyntax.Layout

namespace StarlarkSyntax

open Layout (lineByLine isCode)

/-! ## Tokens without their places -/

/-- A token at the start of a text. -/
def bareToken (content : Content) : Token := ⟨content.1.1, default, content.1.2, 0⟩

theorem pieces_contents (text : List Char) :
    Layout.pieces (tokenize text).tokens = lineByLine ((contents text).map bareToken) := by
  rw [pieces_read]
  refine Layout.lineByLine_congr ?_
  rw [Layout.map_piece_read, List.map_map]
  rfl

theorem isCode_bareToken {trivia : List Content} (passed : Trivial trivia) :
    ∀ token ∈ trivia.map bareToken, isCode token = false := by
  intro token mem
  obtain ⟨content, among, rfl⟩ := List.mem_map.1 mem
  rw [isCode, bareToken, (passed content among).1]
  rfl

end StarlarkSyntax
