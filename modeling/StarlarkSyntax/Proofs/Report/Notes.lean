import Mathlib.Algebra.BigOperators.Group.List.Basic
import Mathlib.Data.List.Nodup
import StarlarkSyntax.Proofs.Report.Rows
/-!
# Where notes are shown

The note of a highlight is shown under the rows that the highlight ends in. One that is not empty ends in the
row that has its last character (`Row.endsHere_of_wide`), unless that is the end of a line: this is in no row,
so the note is lost if the next line is not empty. One that is empty ends in each row that it touches
(`Row.endsHere_of_empty`), and where a line was cut these are two.

How often a note is shown depends on the line that its highlight ends in (`timesShown`), and a window shows
it just so often (`notes_window`).
-/

set_option autoImplicit false

namespace StarlarkSyntax

namespace Span

variable {a b : Span}

/-- Where an overlap ends together with the first of the spans. -/
theorem intersection?_any_stop : (a.intersection? b).any (fun part => part.stop = a.stop) = true ↔
    a.stop ≤ b.stop ∧ (max a.start b.start < a.stop ∨ max a.start b.start = a.stop ∧
      (a.isEmpty || b.isEmpty) = true ∧ (a.contains b || b.contains a) = true) := by
  by_cases le : a.stop ≤ b.stop
  · have first : min a.stop b.stop = a.stop := by rw [Caret.min_def, if_pos le]
    simp only [intersection?, first]
    split
    · rename_i overlap
      have start : max a.start b.start ≤ a.stop := by
        rcases overlap with lt | ⟨same, -⟩
        · exact lt.1
        · exact same ▸ Caret.le_refl _
      simp only [ofCarets_eq start, Option.any_some, decide_true, true_iff]
      exact ⟨le, overlap⟩
    · rename_i apart
      simp only [Option.any_none, Bool.false_eq_true, false_iff]
      exact fun holds => apart holds.2
  · constructor
    · intro found
      obtain ⟨part, is, stop⟩ := (Option.any_eq_true _ _).1 found
      have ends := (ends_of_intersection? is).2
      rw [of_decide_eq_true stop, Caret.min_def, if_neg le] at ends
      exact absurd (ends ▸ Caret.le_refl _) le
    · intro holds
      exact absurd holds.1 le

end Span

namespace Report

/-! ## Rows that a highlight ends in -/

namespace Row

variable {row : Row} {span : Span} {highlight : Highlight}

/-- Does a span end in a row? -/
def endsHere (row : Row) (span : Span) : Bool :=
  (span.intersection? row.span).any fun part => part.stop = span.stop

/-- The note of a highlight is shown under the rows that the highlight ends in. -/
theorem note?_mark? (row : Row) (highlight : Highlight) : (row.mark? highlight).bind Mark.note? =
    if row.endsHere highlight.span then highlight.note? else none := by
  cases is : highlight.span.intersection? row.span <;> simp [mark?, endsHere, is]

theorem line_of_endsHere (ends : row.endsHere span = true) : span.stop.line = row.line := by
  obtain ⟨part, is, stop⟩ := (Option.any_eq_true _ _).1 ends
  rw [← of_decide_eq_true stop]
  exact (within is).2.1

/-- An empty span ends in each row that it touches. -/
theorem endsHere_of_empty (empty : span.start = span.stop) : row.endsHere span = true ↔
    span.stop.line = row.line ∧
      row.start ≤ span.stop.column ∧ span.stop.column ≤ row.start + row.text.length := by
  rw [endsHere, Span.intersection?_any_stop, (Span.isEmpty_iff span).2 empty, empty, span_eq]
  obtain ⟨start, ⟨line, column⟩, ordered⟩ := span
  cases empty
  simp only [Caret.max_def, Span.contains, place, Caret.le_def, Caret.lt_def, Bool.true_or, true_and,
    Bool.or_eq_true, Bool.and_eq_true, decide_eq_true_eq]
  split <;> rename_i first <;> dsimp only at first ⊢ <;>
    simp only [Caret.mk.injEq, true_and] <;> omega

/-- A span that is not empty ends in the row that has its last character. -/
theorem endsHere_of_wide (wide : span.start ≠ span.stop) (some : row.text ≠ []) :
    row.endsHere span = true ↔ span.stop.line = row.line ∧
      row.start < span.stop.column ∧ span.stop.column ≤ row.start + row.text.length := by
  have none : span.isEmpty = false := by simpa [Span.isEmpty] using wide
  rw [endsHere, Span.intersection?_any_stop, none, isEmpty_span some, span_eq]
  obtain ⟨⟨line, column⟩, ⟨line', column'⟩, ordered⟩ := span
  simp only [ne_eq, Caret.mk.injEq, Caret.le_def] at wide ordered
  simp only [Caret.max_def, place, Caret.le_def, Caret.lt_def, Bool.or_self, Bool.false_eq_true,
    false_and, and_false, or_false]
  split <;> rename_i first <;> dsimp only at first ⊢ <;> omega

/-- A span that is not empty ends in an empty row that comes right after its last character. -/
theorem endsHere_of_blank (wide : span.start ≠ span.stop) (blank : row.text = []) :
    row.endsHere span = true ↔ span.stop.line = row.line ∧ span.stop.column = row.start := by
  rw [endsHere, Span.intersection?_any_stop, span_eq, blank]
  obtain ⟨⟨line, column⟩, ⟨line', column'⟩, ordered⟩ := span
  simp only [ne_eq, Caret.mk.injEq, Caret.le_def] at wide ordered
  simp only [Caret.max_def, Span.contains, Span.isEmpty, place, Caret.le_def, Caret.lt_def,
    List.length_nil, Nat.add_zero, decide_true, Bool.or_true, true_and,
    Bool.or_eq_true, Bool.and_eq_true, decide_eq_true_eq]
  split <;> rename_i first <;> dsimp only at first ⊢ <;> simp only [Caret.mk.injEq] <;> omega

end Row

/-! ## Rows of one line -/

variable {width line start column : Nat} {text : List Char}

/-- One row has the character before a column, if there is one. -/
theorem countP_before (texts : List (List Char)) :
    (placeRows line start texts).countP (fun row => decide (row.start < column) &&
        decide (column ≤ row.start + row.text.length)) =
      if start < column ∧ column ≤ start + texts.flatten.length then 1 else 0 := by
  induction texts generalizing start with
  | nil =>
      simp [placeRows]
  | cons text texts ih =>
      rw [placeRows, List.countP_cons, ih, List.flatten_cons, List.length_append]
      simp only [Bool.and_eq_true, decide_eq_true_eq]
      split_ifs <;> omega

/-- A row begins where the line does, and after each full row that is not the last one. -/
theorem countP_start {room : Nat} {row : List Char} (wide : 0 < width) (fits : row.length + room = width) :
    (placeRows line start (cutRows width room row text)).countP (fun row => decide (row.start = column)) =
      if column = start ∨ start < column ∧ column < start + row.length + text.length ∧
        width ∣ column - start then 1 else 0 := by
  fun_induction cutRows width room row text generalizing start with
  | case1 room row =>
      simp only [placeRows, List.countP_cons, List.countP_nil, Nat.zero_add, decide_eq_true_eq,
        List.length_nil, Nat.add_zero]
      have none : ¬(start < column ∧ column < start + row.length ∧ width ∣ column - start) := by
        rintro ⟨after, before, divides⟩
        have := Nat.le_of_dvd (by omega) divides
        omega
      split_ifs <;> omega
  | case2 row c text ih =>
      have full : row.reverse.length = width := by simpa using fits
      rw [placeRows, List.countP_cons, ih (by simp; omega), full]
      simp only [decide_eq_true_eq, List.length_cons, List.length_nil]
      have later : (column = start + width ∨ start + width < column ∧
            column < start + width + (0 + 1) + text.length ∧ width ∣ column - (start + width)) ↔
          start < column ∧ column < start + row.length + (text.length + 1) ∧ width ∣ column - start := by
        constructor
        · rintro (rfl | ⟨after, before, divides⟩)
          · exact ⟨by omega, by omega, by simp⟩
          · have one : column - start = column - (start + width) + width := by omega
            exact ⟨by omega, by omega, one ▸ Nat.dvd_add_self_right.2 divides⟩
        · rintro ⟨after, before, divides⟩
          have le := Nat.le_of_dvd (by omega) divides
          by_cases next : column = start + width
          · exact .inl next
          · have one : column - start = column - (start + width) + width := by omega
            exact .inr ⟨by omega, by omega, Nat.dvd_add_self_right.1 (one ▸ divides)⟩
      rw [if_congr later rfl rfl]
      split_ifs <;> omega
  | case3 row c text room ih =>
      rw [ih (by simp; omega), List.length_cons, List.length_cons,
        show start + (row.length + 1) + text.length = start + row.length + (text.length + 1) by omega]

theorem ne_nil_of_mem_cutRows {room : Nat} {row : List Char} (some : row ≠ [] ∨ text ≠ [])
    (wide : 0 < width) (fits : row.length + room = width) :
    ∀ part ∈ cutRows width room row text, part ≠ [] := by
  fun_induction cutRows width room row text with
  | case1 room row => simpa using some
  | case2 row c text ih =>
      rw [List.forall_mem_cons]
      constructor
      · intro none
        rw [List.reverse_eq_nil_iff.1 none] at fits
        simp at fits
        omega
      · apply ih
        · exact .inl (List.cons_ne_nil _ _)
        · simp
          omega
  | case3 row c text room ih =>
      apply ih
      · exact .inl (List.cons_ne_nil _ _)
      · simp
        omega

/-- How often the note of a highlight is shown, by the length of the line that it ends in: twice where the
line was cut at an empty highlight, and never where the highlight ends after the end of a line. -/
def timesShown (width length : Nat) (span : Span) : Nat :=
  if span.start = span.stop then
    if length < span.stop.column then 0
    else if 0 < span.stop.column ∧ span.stop.column < length ∧ width ∣ span.stop.column then 2
    else 1
  else if length = 0 then if span.stop.column = 0 then 1 else 0
  else if 0 < span.stop.column ∧ span.stop.column ≤ length then 1 else 0

example : timesShown 35 36 (.point ⟨0, 35⟩) = 2 := by decide

theorem countP_or {α : Type} {first second : α → Bool} {list : List α}
    (apart : ∀ a ∈ list, first a = true → second a = false) :
    list.countP (fun a => first a || second a) = list.countP first + list.countP second := by
  induction list with
  | nil => rfl
  | cons a list ih =>
      obtain ⟨here, there⟩ := List.forall_mem_cons.1 apart
      rw [List.countP_cons, List.countP_cons, List.countP_cons, ih there]
      cases one : first a with
      | true =>
          simp [here one]
          omega
      | false =>
          simp
          omega

/-- The rows of the line that a highlight ends in. -/
theorem countP_rowsOfLine (wide : 0 < width) (span : Span) (text : List Char) :
    (CodeWindow.rowsOfLine width span.stop.line text).countP (·.endsHere span) =
      timesShown width text.length span := by
  have one : max 1 width = width := by omega
  rw [CodeWindow.rowsOfLine, one, timesShown]
  have here : ∀ row ∈ placeRows span.stop.line 0 (cutRows width width [] text), row.line = span.stop.line :=
    line_of_mem_placeRows
  have fits : ([] : List Char).length + width = width := Nat.zero_add _
  by_cases empty : span.start = span.stop
  · -- The rows that an empty highlight touches have the character before it, or begin with it.
    have touched : ∀ row ∈ placeRows span.stop.line 0 (cutRows width width [] text),
        row.endsHere span = (decide (row.start < span.stop.column) &&
          decide (span.stop.column ≤ row.start + row.text.length) ||
            decide (row.start = span.stop.column)) := by
      intro row mem
      rw [Bool.eq_iff_iff, Row.endsHere_of_empty empty, here row mem]
      simp only [true_and, Bool.or_eq_true, Bool.and_eq_true, decide_eq_true_eq]
      omega
    rw [if_pos empty, List.countP_congr fun row mem => by rw [touched row mem], countP_or, countP_before,
      countP_start wide fits, flatten_cutRows]
    · simp only [List.reverse_nil, List.nil_append, List.length_nil, Nat.zero_add, Nat.sub_zero]
      split_ifs <;> omega
    · intro row _
      simp only [Bool.and_eq_true, decide_eq_true_eq, decide_eq_false_iff_not]
      omega
  rw [if_neg empty]
  cases text with
  | nil =>
      have ends : Row.endsHere ⟨span.stop.line, 0, []⟩ span = true ↔ span.stop.column = 0 := by
        simp [Row.endsHere_of_blank empty]
      simp only [cutRows, placeRows, List.reverse_nil, List.countP_cons, List.countP_nil, ends,
        List.length_nil, if_true, Nat.zero_add]
  | cons c text =>
      have ended : ∀ row ∈ placeRows span.stop.line 0 (cutRows width width [] (c :: text)),
          row.endsHere span = (decide (row.start < span.stop.column) &&
            decide (span.stop.column ≤ row.start + row.text.length)) := by
        intro row mem
        have some : row.text ≠ [] := by
          apply ne_nil_of_mem_cutRows (.inr (List.cons_ne_nil c text)) wide fits
          have listed := List.mem_map_of_mem (f := Row.text) mem
          rwa [map_text_placeRows] at listed
        rw [Bool.eq_iff_iff, Row.endsHere_of_wide empty some, here row mem]
        simp only [true_and, Bool.and_eq_true, decide_eq_true_eq]
      rw [List.countP_congr fun row mem => by rw [ended row mem], countP_before, flatten_cutRows]
      simp

/-! ## Windows -/

/-- All rows of a window. -/
def rowsOf (canvas : Canvas) (window : CodeWindow) : List Row :=
  window.numberedLines.flatMap fun (line, text) =>
    CodeWindow.rowsOfLine (codeWidth canvas window) line text

/-- A window shows the note of each highlight as often as the line says that the highlight ends in. -/
theorem notes_window (canvas : Canvas) {highlights : List Highlight} (text : List Char)
    {highlight : Highlight} (mem : highlight ∈ highlights) {note : String}
    (noted : highlight.note? = some note) :
    ∃ window, CodeWindow.of? highlights text = some window ∧
      (rowsOf canvas window).filterMap (fun row => (row.mark? highlight).bind Mark.note?) =
        List.replicate (timesShown (codeWidth canvas window)
          (lineAt text highlight.span.stop.line).length highlight.span) note := by
  obtain ⟨window, first, last, is, least, greatest, -, lines⟩ :=
    of?_eq text (List.ne_nil_of_mem mem)
  have wide : 0 < codeWidth canvas window := by
    unfold codeWidth
    omega
  refine ⟨window, is, List.eq_replicate_iff.2 ⟨?_, ?_⟩⟩
  · have listed : highlight.span.stop.line ∈ List.range' first (last + 1 - first) := by
      have le := highlight.span.start_le_stop
      have begins := least.2 ⟨highlight, mem, rfl⟩
      have ends := greatest.2 ⟨highlight, mem, rfl⟩
      rw [Caret.le_def] at le
      rw [List.mem_range'_1]
      omega
    -- No row of another line has the end of the highlight.
    have elsewhere : ∀ line ∈ List.range' first (last + 1 - first), line ≠ highlight.span.stop.line →
        (CodeWindow.rowsOfLine (codeWidth canvas window) line (lineAt text line)).countP
          (·.endsHere highlight.span) = 0 := by
      intro line _ other
      rw [List.countP_eq_zero]
      intro row mem ends
      exact other ((line_of_mem_placeRows row mem).symm.trans (Row.line_of_endsHere ends).symm)
    have shown : ∀ row ∈ rowsOf canvas window,
        ((row.mark? highlight).bind Mark.note?).isSome = row.endsHere highlight.span := by
      intro row _
      rw [Row.note?_mark?, noted]
      cases row.endsHere highlight.span <;> rfl
    calc ((rowsOf canvas window).filterMap fun row => (row.mark? highlight).bind Mark.note?).length
      _ = (rowsOf canvas window).countP (·.endsHere highlight.span) := by
        rw [List.length_filterMap_eq_countP]
        exact List.countP_congr fun row mem => by rw [shown row mem]
      _ = ((List.range' first (last + 1 - first)).map fun line =>
            (CodeWindow.rowsOfLine (codeWidth canvas window) line (lineAt text line)).countP
              (·.endsHere highlight.span)).sum := by
        rw [rowsOf, lines, List.flatMap_map, List.countP_flatMap]
        rfl
      _ = timesShown (codeWidth canvas window) (lineAt text highlight.span.stop.line).length
            highlight.span := by
        rw [List.sum_map_eq_nsmul_single _ _ fun line other mem => elsewhere line mem other,
          List.count_eq_one_of_mem List.nodup_range' listed, one_nsmul, countP_rowsOfLine wide]
  · intro other found
    obtain ⟨row, -, shown⟩ := List.mem_filterMap.1 found
    rw [Row.note?_mark?, noted] at shown
    split at shown <;> cases shown
    rfl

end Report
end StarlarkSyntax
