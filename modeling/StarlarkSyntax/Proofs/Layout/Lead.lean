import Mathlib.Data.List.DropRight
import StarlarkSyntax.Proofs.Grammar.Shape
import StarlarkSyntax.Proofs.Layout.LineByLine
/-!
# What comes before the code of a line

Between the code of one logical line and that of the next stand lines with only a comment, and then the white
space before the code (`Lead`). Where blocks begin and end among them is said here of the comment lines
themselves, from the first one on: a level ends before the first line that is indented less
(`endLevels`), and a block takes in the last comment lines that are indented like it
(`Lead.beginLevel`).

The layout pass gives places instead, which are counted from the first pending token, and inserts from the
last place on. `endLevels_spec` and `beginLevel_spec` are that this comes to the same.
-/

set_option autoImplicit false

namespace StarlarkSyntax.Layout

/-! ## Comment lines -/

/-- The column that white space leads to. -/
def column (run : List Piece) : Nat := columnAfter 0 (run.flatMap Prod.snd)

/-- A line with only a comment on it. -/
structure Remark where
  /-- The white space before it: one piece, or none at the very start of a text. -/
  run : List Piece
  comment : Piece

namespace Remark

/-- How far the comment is indented. -/
def indent (remark : Remark) : Nat := column remark.run

def pieces (remark : Remark) : List Piece := remark.run ++ [remark.comment]

end Remark

/-- The pieces of some comment lines. -/
def written (remarks : List Remark) : List Piece := remarks.flatMap Remark.pieces

@[simp] theorem written_nil : written [] = [] := rfl

@[simp] theorem written_cons (remark : Remark) (remarks : List Remark) :
    written (remark :: remarks) = remark.pieces ++ written remarks := rfl

@[simp] theorem written_append (remarks more : List Remark) :
    written (remarks ++ more) = written remarks ++ written more := List.flatMap_append

/-- What comes before the code of a logical line: lines with only a comment, and white space. -/
structure Lead where
  remarks : List Remark
  /-- The white space before the code: one piece, or none at the very start of a text. -/
  run : List Piece

/-! ## Levels that end -/

/-- The levels that a line in some column ends, innermost first, each with what marks its end. If the
line is in none of the levels that are open, this is marked before the last of them. -/
def endedBy (column : Nat) : List Nat → List (Nat × Kind)
  | [] => []
  | level :: outer =>
    if column < level then
      if outer.headD 0 < column then [(level, .inconsistentDedent), (level, .dedent)]
      else (level, .dedent) :: endedBy column outer
    else []

/-- Comment lines and the white space after them, with the ends of levels in their places. A level ends
right before the white space of the first comment line that is indented less, or if there is none, right
before the last white space. -/
def endLevels (run : List Piece) : List Remark → List (Nat × Kind) → List Piece
  | [], ends => ends.map (mark ·.2) ++ run
  | remark :: remarks, ends =>
    (ends.filter (remark.indent < ·.1)).map (mark ·.2) ++ remark.pieces ++
      endLevels run remarks (ends.filter (¬remark.indent < ·.1))

example (run : List Piece) :
    let remark (run : List Char) : Remark := ⟨[(.lineBreak, run)], (.comment, ['#'])⟩
    endLevels run [remark "\n    ".toList, remark "\n  ".toList, remark "\n      ".toList]
        (endedBy 0 [4, 2]) =
      (remark "\n    ".toList).pieces ++ mark .dedent :: (remark "\n  ".toList).pieces ++
        (remark "\n      ".toList).pieces ++ mark .dedent :: run := rfl

/-- A level further out does not come first. -/
def InnermostFirst (ends : List (Nat × Kind)) : Prop := ends.Pairwise fun x y => y.1 ≤ x.1

theorem endedBy_level {column : Nat} {levels : List Nat} :
    ∀ x ∈ endedBy column levels, x.1 ∈ levels ∧ (x.2 = .dedent ∨ x.2 = .inconsistentDedent) := by
  fun_induction endedBy column levels with
  | case1 => simp
  | case2 level outer deep between => simp
  | case3 level outer deep outside ih =>
      exact List.forall_mem_cons.2 ⟨by simp, fun x mem => ⟨.tail _ (ih x mem).1, (ih x mem).2⟩⟩
  | case4 => simp

theorem innermostFirst_endedBy {column : Nat} {levels : List Nat} (sorted : levels.Pairwise (· > ·)) :
    InnermostFirst (endedBy column levels) := by
  fun_induction endedBy column levels with
  | case1 => exact .nil
  | case2 level outer deep between => simp [InnermostFirst]
  | case3 level outer deep outside ih =>
      obtain ⟨deeper, sorted⟩ := List.pairwise_cons.1 sorted
      exact List.pairwise_cons.2
        ⟨fun x mem => Nat.le_of_lt (deeper x.1 (endedBy_level x mem).1), ih sorted⟩
  | case4 => exact .nil

/-- The levels that a line is outside of come first. -/
theorem InnermostFirst.split {ends : List (Nat × Kind)} (order : InnermostFirst ends) (indent : Nat) :
    ends.filter (indent < ·.1) ++ ends.filter (¬indent < ·.1) = ends := by
  induction ends with
  | nil => rfl
  | cons x ends ih =>
      obtain ⟨first, order⟩ := List.pairwise_cons.1 order
      by_cases outside : indent < x.1
      · simpa [outside] using ih order
      · have none : ends.filter (indent < ·.1) = [] := by
          refine List.filter_eq_nil_iff.2 fun y mem => ?_
          have := first y mem
          simp only [decide_eq_true_eq]
          omega
        have all : ends.filter (¬indent < ·.1) = ends := by
          refine List.filter_eq_self.2 fun y mem => ?_
          have := first y mem
          simp only [decide_eq_true_eq]
          omega
        simp only [List.filter_cons, outside, decide_false, Bool.false_eq_true, if_false, none,
          not_false_eq_true, decide_true, if_true, all, List.nil_append]

theorem InnermostFirst.filter {ends : List (Nat × Kind)} (order : InnermostFirst ends)
    (test : Nat × Kind → Bool) : InnermostFirst (ends.filter test) := List.Pairwise.filter test order

/-- The ends come out in their order, whatever comment lines are between them. -/
theorem ends_endLevels {run : List Piece} {remarks : List Remark} {ends : List (Nat × Kind)}
    (order : InnermostFirst ends) (marks : ∀ x ∈ ends, x.2.isLayout = true)
    (plain : ∀ piece ∈ written remarks ++ run, piece.1.isLayout = false) :
    (endLevels run remarks ends).filter (·.1.isLayout) = ends.map (mark ·.2) := by
  have all {ends : List (Nat × Kind)} (marks : ∀ x ∈ ends, x.2.isLayout = true) :
      (ends.map (mark ·.2)).filter (·.1.isLayout) = ends.map (mark ·.2) :=
    List.filter_eq_self.2 (List.forall_mem_map.2 marks)
  have none {pieces : List Piece} (plain : ∀ piece ∈ pieces, piece.1.isLayout = false) :
      pieces.filter (·.1.isLayout) = [] :=
    List.filter_eq_nil_iff.2 fun piece mem => by simp [plain piece mem]
  induction remarks generalizing ends with
  | nil =>
      rw [written_nil, List.nil_append] at plain
      rw [endLevels, List.filter_append, all marks, none plain, List.append_nil]
  | cons remark remarks ih =>
      rw [written_cons, List.append_assoc, List.forall_mem_append] at plain
      obtain ⟨here, plain⟩ := plain
      rw [endLevels, List.filter_append, List.filter_append,
        all fun x mem => marks x (List.mem_filter.1 mem).1, none here, List.append_nil,
        ih (order.filter _) (fun x mem => marks x (List.mem_filter.1 mem).1) plain,
        ← List.map_append, order.split]

namespace Lead

def column (lead : Lead) : Nat := Layout.column lead.run

def pieces (lead : Lead) : List Piece := written lead.remarks ++ lead.run

/-- A block that begins with the line: right before the first of the last comment lines that are indented
exactly like the line, or if the last one is not, right before the code. -/
def beginLevel (lead : Lead) : List Piece :=
  let others := lead.remarks.rdropWhile (·.indent == lead.column)
  match lead.remarks.rtakeWhile (·.indent == lead.column) with
  | [] => written others ++ lead.run ++ [mark .indent]
  | first :: own =>
    written others ++ first.run ++ mark .indent :: first.comment :: written own ++ lead.run

/-- What comes before the code, with the levels that begin or end there, and the levels after that. -/
def arranged (lead : Lead) (levels : List Nat) : List Piece × List Nat :=
  if levels.headD 0 < lead.column then (lead.beginLevel, lead.column :: levels)
  else (endLevels lead.run lead.remarks (endedBy lead.column levels),
    levels.dropWhile (lead.column < ·))

end Lead

/-! ## Places -/

/-- What the pass knows of comment lines that are pending from some place on. -/
def notes (place : Nat) : List Remark → List CommentLine
  | [] => []
  | remark :: remarks =>
    ⟨place, place + remark.run.length, remark.indent⟩ :: notes (place + remark.pieces.length) remarks

theorem notes_append (place : Nat) (remarks more : List Remark) :
    notes place (remarks ++ more) =
      notes place remarks ++ notes (place + (written remarks).length) more := by
  induction remarks generalizing place with
  | nil => rfl
  | cons remark remarks ih =>
      simp only [List.cons_append, notes, ih, written_cons, List.length_append, Nat.add_assoc]

/-- Where the first comment line begins that is indented less than a level. -/
def endOf (level : Nat) : List Remark → Nat
  | [] => 0
  | remark :: remarks =>
    if remark.indent < level then 0 else remark.pieces.length + endOf level remarks

theorem firstRun_notes (level place : Nat) (remarks : List Remark) :
    firstRun (·.indent < level) (place + (written remarks).length) (notes place remarks) =
      place + endOf level remarks := by
  induction remarks generalizing place with
  | nil => rfl
  | cons remark remarks ih =>
      rw [notes, endOf]
      by_cases outside : remark.indent < level
      · rw [if_pos outside]
        simp [firstRun, outside]
      · rw [if_neg outside, ← Nat.add_assoc, ← ih, written_cons, List.length_append, Nat.add_assoc]
        simp [firstRun, outside]

/-- A last comment line makes no difference if the line after it would not. -/
theorem firstRun_concat (test : CommentLine → Bool) (run : Nat) (lines : List CommentLine)
    {last : CommentLine} (same : last.run = run) :
    firstRun test run (lines ++ [last]) = firstRun test run lines := by
  unfold firstRun
  rw [List.find?_append]
  cases lines.find? test with
  | some line => rfl
  | none =>
      cases passes : test last with
      | true => simp [passes, same]
      | false => simp [passes]

theorem map_insert (pending : Array Token) (place : Nat) (kind : Kind) (next : Caret × Nat) :
    (insert pending place kind next).toList.map Token.piece =
      (pending.toList.map Token.piece).insertIdx place (mark kind) := by
  obtain ⟨caret, offset, inserted⟩ := toList_insert pending place kind next
  rw [inserted, List.map_insertIdx]
  rfl

theorem insertIdx_append {α : Type} (front back : List α) (place : Nat) (x : α) :
    (front ++ back).insertIdx (front.length + place) x = front ++ back.insertIdx place x := by
  induction front with
  | nil => simp
  | cons y front ih =>
      rw [List.length_cons, Nat.add_right_comm]
      simpa using ih

/-- Pieces with the ends of levels inserted, from the last one on. -/
def withEnds (place : Nat × Kind → Nat) (ends : List (Nat × Kind)) (pieces : List Piece) : List Piece :=
  ends.foldr (fun x pieces => pieces.insertIdx (place x) (mark x.2)) pieces

theorem withEnds_append (place : Nat × Kind → Nat) (ends more : List (Nat × Kind)) (pieces : List Piece) :
    withEnds place (ends ++ more) pieces = withEnds place ends (withEnds place more pieces) :=
  List.foldr_append

/-- Ends that come first do so in their order. -/
theorem withEnds_first {place : Nat × Kind → Nat} {ends : List (Nat × Kind)}
    (first : ∀ x ∈ ends, place x = 0) (pieces : List Piece) :
    withEnds place ends pieces = ends.map (mark ·.2) ++ pieces := by
  induction ends with
  | nil => rfl
  | cons x ends ih =>
      obtain ⟨here, first⟩ := List.forall_mem_cons.1 first
      show (withEnds place ends pieces).insertIdx (place x) (mark x.2) = _
      rw [ih first, here]
      rfl

/-- Ends that come later leave what comes first as it is. -/
theorem withEnds_later {place later : Nat × Kind → Nat} {ends : List (Nat × Kind)} {front : List Piece}
    (same : ∀ x ∈ ends, place x = front.length + later x) (pieces : List Piece) :
    withEnds place ends (front ++ pieces) = front ++ withEnds later ends pieces := by
  induction ends with
  | nil => rfl
  | cons x ends ih =>
      obtain ⟨here, same⟩ := List.forall_mem_cons.1 same
      show (withEnds place ends (front ++ pieces)).insertIdx (place x) (mark x.2) = _
      rw [ih same, here, insertIdx_append]
      rfl

/-- Insertion at places gives each end its place among the comment lines. -/
theorem withEnds_eq {ends : List (Nat × Kind)} (order : InnermostFirst ends) (run : List Piece)
    (remarks : List Remark) : withEnds (endOf ·.1 remarks) ends (written remarks ++ run) =
      endLevels run remarks ends := by
  induction remarks generalizing ends with
  | nil => exact withEnds_first (fun _ _ => rfl) run
  | cons remark remarks ih =>
      have later : ∀ x ∈ ends.filter (¬remark.indent < ·.1),
          endOf x.1 (remark :: remarks) = remark.pieces.length + endOf x.1 remarks := by
        intro x mem
        have inside := (List.mem_filter.1 mem).2
        simp only [decide_eq_true_eq] at inside
        exact if_neg inside
      have first : ∀ x ∈ ends.filter (remark.indent < ·.1), endOf x.1 (remark :: remarks) = 0 := by
        intro x mem
        have outside := (List.mem_filter.1 mem).2
        simp only [decide_eq_true_eq] at outside
        exact if_pos outside
      rw [endLevels, written_cons, List.append_assoc]
      conv_lhs => rw [← order.split remark.indent]
      rw [withEnds_append, withEnds_later later, ih (order.filter _), withEnds_first first,
        List.append_assoc]

theorem endLevels_append (run more : List Piece) (remarks : List Remark) (ends : List (Nat × Kind)) :
    endLevels (run ++ more) remarks ends = endLevels run remarks ends ++ more := by
  induction remarks generalizing ends with
  | nil => exact (List.append_assoc ..).symm
  | cons remark remarks ih =>
      rw [endLevels, endLevels, ih]
      simp only [List.append_assoc]

/-! ## What the pass does before a line -/

variable {state : State} {lead : Lead}

/-- The pass closes the levels that a line ends, each at its place. -/
theorem closings_eq (state : State) (indent run : Nat) {levels : List Nat}
    (sorted : levels.Pairwise (· > ·)) : closings state indent run levels =
      (levels.dropWhile (indent < ·),
        (endedBy indent levels).map fun x => (dedentPlace state x.1 run, x.2)) := by
  induction levels with
  | nil => rfl
  | cons level outer ih =>
      obtain ⟨-, sorted⟩ := List.pairwise_cons.1 sorted
      rw [closings, endedBy]
      by_cases deep : indent < level
      · rw [if_neg (Nat.not_le.2 deep), if_pos deep, List.dropWhile_cons_of_pos (by simpa using deep)]
        by_cases between : outer.headD 0 < indent
        · have stays : outer.dropWhile (indent < ·) = outer := by
            cases outer with
            | nil => rfl
            | cons exposed outer =>
                have between : exposed < indent := between
                exact List.dropWhile_cons_of_neg (by simp only [decide_eq_true_eq]; omega)
          rw [if_pos between, stays]
          exact if_pos between
        · rw [if_neg between, ih sorted]
          exact if_neg between
      · rw [if_pos (Nat.not_lt.1 deep), if_neg deep, List.dropWhile_cons_of_neg (by simpa using deep)]
        rfl

/-- Levels are closed where they end among the comment lines. -/
theorem dedent_eq {last : List Piece} (sorted : state.blocks.Pairwise (· > ·))
    (pending : state.pending.toList.map Token.piece = lead.pieces ++ last)
    (places : ∀ level, dedentPlace state level (written lead.remarks).length = endOf level lead.remarks)
    (indent : Nat) (next : Caret × Nat) :
    (dedent state indent (written lead.remarks).length next).pending.toList.map Token.piece =
        endLevels lead.run lead.remarks (endedBy indent state.blocks) ++ last ∧
      (dedent state indent (written lead.remarks).length next).blocks =
        state.blocks.dropWhile (indent < ·) := by
  have closed := closings_eq state indent (written lead.remarks).length sorted
  have order : InnermostFirst (endedBy indent state.blocks) := innermostFirst_endedBy sorted
  simp only [places] at closed
  simp only [dedent, closed, and_true]
  rw [← endLevels_append, ← withEnds_eq order, ← List.append_assoc]
  show _ = withEnds _ _ (lead.pieces ++ last)
  rw [← pending]
  generalize endedBy indent state.blocks = ends
  induction ends with
  | nil => rfl
  | cons x ends ih =>
      rw [List.map_cons, List.foldr_cons, map_insert, ih]
      rfl

/-- Of the comment lines that the pass knows, the last ones with some indentation. -/
theorem takeWhile_notes {column : Nat} {others own : List Remark}
    (stops : ∀ remark ∈ others.getLast?, remark.indent ≠ column)
    (all : ∀ remark ∈ own, remark.indent = column) :
    (notes 0 (others ++ own)).reverse.takeWhile (·.indent == column) =
      (notes (written others).length own).reverse := by
  have like (place : Nat) : ∀ line ∈ (notes place own).reverse, (line.indent == column) = true := by
    intro line mem
    rw [List.mem_reverse] at mem
    induction own generalizing place with
    | nil => cases mem
    | cons remark own ih =>
        obtain ⟨first, all⟩ := List.forall_mem_cons.1 all
        rcases List.mem_cons.1 mem with rfl | mem
        · exact beq_iff_eq.2 first
        · exact ih all _ mem
  rw [notes_append, List.reverse_append, List.takeWhile_append_of_pos (like _), Nat.zero_add]
  refine (congrArg _ ?_).trans (List.append_nil _)
  rcases others.eq_nil_or_concat with rfl | ⟨front, last, rfl⟩
  · rfl
  · rw [List.concat_eq_append] at stops ⊢
    rw [notes_append, List.reverse_append]
    exact List.takeWhile_cons_of_neg (by simpa using stops last (by simp))

/-- A level is opened before the last comment lines that are indented like the line, or before its code. -/
theorem insert_indentPlace (pending : state.pending.toList.map Token.piece = lead.pieces)
    (noted : state.commentLines.toList = notes 0 lead.remarks) (next : Caret × Nat) :
    (insert state.pending (indentPlace state lead.column) .indent next).toList.map Token.piece =
      lead.beginLevel := by
  have size : state.pending.size = lead.pieces.length := by
    rw [← pending, List.length_map, Array.length_toList]
  have whole := List.rdropWhile_append_rtakeWhile (p := (·.indent == lead.column)) (l := lead.remarks)
  have stops : ∀ remark ∈ (lead.remarks.rdropWhile (·.indent == lead.column)).getLast?,
      remark.indent ≠ lead.column := by
    intro remark last
    obtain ⟨some, rfl⟩ := List.mem_getLast?_eq_getLast last
    simpa using List.rdropWhile_last_not (·.indent == lead.column) lead.remarks some
  have all : ∀ remark ∈ lead.remarks.rtakeWhile (·.indent == lead.column),
      remark.indent = lead.column := fun remark mem => by simpa using List.mem_rtakeWhile_imp mem
  rw [map_insert, pending, Lead.beginLevel, indentPlace, noted]
  generalize lead.remarks.rdropWhile (·.indent == lead.column) = others at whole stops
  generalize lead.remarks.rtakeWhile (·.indent == lead.column) = own at whole all
  have lasts := takeWhile_notes stops all
  have pieces : lead.pieces = written others ++ (written own ++ lead.run) := by
    rw [Lead.pieces, ← whole, written_append, List.append_assoc]
  rw [← whole, lasts, List.getLast?_reverse]
  cases own with
  | nil =>
      show lead.pieces.insertIdx state.pending.size (mark .indent) = _
      rw [size, List.insertIdx_length_self, pieces]
      rfl
  | cons first own =>
      show lead.pieces.insertIdx ((written others).length + first.run.length) (mark .indent) = _
      rw [pieces, insertIdx_append, written_cons, Remark.pieces, List.append_assoc, List.append_assoc]
      have place := insertIdx_append first.run ([first.comment] ++ (written own ++ lead.run)) 0
        (mark .indent)
      rw [Nat.add_zero] at place
      rw [place]
      simp

theorem endLevels_nil (run : List Piece) (remarks : List Remark) :
    endLevels run remarks [] = written remarks ++ run := by
  induction remarks with
  | nil => rfl
  | cons remark remarks ih =>
      rw [endLevels, written_cons, List.append_assoc]
      simp [ih]

/-- A line in the innermost level neither begins nor ends one. -/
theorem Lead.arranged_eq {levels : List Nat} (same : lead.column = levels.headD 0) :
    lead.arranged levels = (lead.pieces, levels) := by
  have none : endedBy lead.column levels = [] ∧ levels.dropWhile (lead.column < ·) = levels := by
    cases levels with
    | nil => exact ⟨rfl, rfl⟩
    | cons top outer =>
        have stays : ¬lead.column < top := by simp [same]
        exact ⟨if_neg stays, List.dropWhile_cons_of_neg (by simpa using stays)⟩
  rw [Lead.arranged, if_neg (by omega), none.1, none.2, endLevels_nil]
  rfl

/-- What the pass makes of the pending tokens before the code of a line. -/
theorem indentation_eq (start : LineStart) (sorted : state.blocks.Pairwise (· > ·))
    (pending : state.pending.toList.map Token.piece = lead.pieces)
    (noted : state.commentLines.toList = notes 0 lead.remarks)
    (run : start.run = (written lead.remarks).length) (indent : start.indent = lead.column)
    (next : Caret × Nat) :
    (indentation state start next).pending.toList.map Token.piece = (lead.arranged state.blocks).1 ∧
      (indentation state start next).blocks = (lead.arranged state.blocks).2 := by
  unfold indentation innermost
  dsimp only
  rw [indent, run]
  by_cases deeper : state.blocks.headD 0 < lead.column
  · rw [if_pos deeper, Lead.arranged, if_pos deeper]
    exact ⟨insert_indentPlace pending noted next, rfl⟩
  · rw [if_neg deeper]
    by_cases shallower : lead.column < state.blocks.headD 0
    · have places (level : Nat) : dedentPlace state level (written lead.remarks).length =
          endOf level lead.remarks := by
        rw [dedentPlace_eq, noted, ← Nat.zero_add (written lead.remarks).length, firstRun_notes,
          Nat.zero_add]
      have ended := dedent_eq sorted (by rw [pending, List.append_nil]) places lead.column next
      rw [List.append_nil] at ended
      rw [if_pos shallower, Lead.arranged, if_neg deeper]
      exact ended
    · rw [if_neg shallower, Lead.arranged_eq (by omega)]
      exact ⟨pending, rfl⟩

end StarlarkSyntax.Layout
