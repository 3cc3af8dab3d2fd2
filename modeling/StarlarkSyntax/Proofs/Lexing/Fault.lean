import Mathlib.Data.List.Forall2
import StarlarkSyntax.Proofs.Layout.Scan
/-!
# Faults are found where invalid tokens stand

Each rule of the lexical grammar that finds a fault has read at least as far as the place of the fault
(`within_lexeme`). So the invalid tokens that are read from a text and the errors that are kept beside
them go together one by one, and each error lies between the two ends of its token
(`forall₂_scan`).
-/

set_option autoImplicit false

namespace StarlarkSyntax
namespace Lexeme

/-- If the lexeme is a fault, then this was found no later than where the lexeme ends. -/
def Within (lexeme : Lexeme) : Prop :=
  ∀ fault position, lexeme.verdict = .fault fault position → position ≤ lexeme.length

theorem within_ofKind (length : Nat) (kind : Kind) : (ofKind length kind).Within := nofun

theorem within_ofFault {length position : Nat} (le : position ≤ length) (fault : LexicalFault) :
    (ofFault length fault position).Within := by
  rintro _ _ ⟨⟩
  exact le

theorem within_decimal (text : List Char) : (decimal text).Within := by
  unfold decimal
  dsimp only
  split
  · split
    · split
      · exact within_ofFault (Nat.le_refl _) _
      · exact within_ofKind _ _
    · exact within_ofKind _ _
  · exact within_ofKind _ _

theorem within_number (text : List Char) : (number text).Within := by
  unfold number
  split
  · split
    · unfold radixLiteral
      split
      · exact within_ofFault (Nat.le_refl _) _
      · exact within_ofKind _ _
    · exact within_decimal _
  · exact within_decimal _

/-- An escape that is none stands in the contents that were looked at. -/
theorem invalidEscape?_le {read position : Nat} {text : List Char} {c : Char}
    (found : invalidEscape? read text = some (position, c)) : position ≤ read + text.length := by
  fun_induction invalidEscape? read text with
  | case1 | case2 => cases found
  | case3 read d text _ ih =>
      have := ih found
      simp only [List.length_cons]
      omega
  | case4 =>
      cases found
      simp only [List.length_cons]
      omega
  | case5 read c d text _ ih =>
      have := ih found
      simp only [List.length_cons] at this ⊢
      omega

theorem within_quoted (letters : List Char) (quote : Char) (text : List Char) :
    (quoted letters quote text).Within := by
  unfold quoted
  dsimp only
  split
  · exact within_ofFault (Nat.zero_le _) _
  · rename_i length _
    split
    · exact within_ofKind _ _
    · split
      · rename_i position c found
        refine within_ofFault ?_ _
        have inside := invalidEscape?_le found
        have taken := List.length_take_le length
          (text.drop ((if (text.take 2 == [quote, quote]) = true then 3 else 1) - 1))
        omega
      · exact within_ofKind _ _

theorem within_stringLiteral? {text : List Char} {literal : Lexeme}
    (found : stringLiteral? text = some literal) : literal.Within := by
  unfold stringLiteral? at found
  split at found
  · contradiction
  · split at found
    · cases found
      exact within_quoted _ _ _
    · contradiction

theorem within_word (text : List Char) : (word text).Within := by
  unfold word
  dsimp only
  split <;> exact within_ofKind _ _

theorem within_symbol (c : Char) (text : List Char) : (symbol c text).Within := by
  unfold symbol
  dsimp only
  split
  · split <;> exact within_ofKind _ _
  · split
    · exact within_ofKind _ _
    · exact within_ofFault (Nat.zero_le _) _

end Lexeme

open Lexeme in
/-- Faults are found within what is read. -/
theorem within_lexeme (c : Char) (text : List Char) : (lexeme c text).Within := by
  unfold lexeme
  split
  · exact within_ofKind _ _
  split
  · exact within_ofKind _ _
  split
  · unfold continuation
    split
    · exact within_ofKind _ _
    · exact within_ofKind _ _
    · exact within_ofFault (Nat.zero_le _) _
  split
  · exact within_ofKind _ _
  split
  · unfold point
    split
    · exact within_number _
    · exact within_ofKind _ _
  split
  · rename_i found
    exact within_stringLiteral? found
  split
  · exact within_number _
  split
  · exact within_word _
  · exact within_symbol _ _

/-- The error lies between the two ends of the token. -/
def LexicalError.In (error : LexicalError) (token : Token) : Prop :=
  token.span.start ≤ error.caret ∧ error.caret ≤ token.span.stop

namespace Cursor

theorem caret_skip_le (cursor : Cursor) {count further : Nat} (le : count ≤ further) :
    (cursor.skip count).caret ≤ (cursor.skip further).caret := by
  have more : cursor.rest.take further = cursor.rest.take count ++
      (cursor.rest.drop count).take (further - count) := by
    rw [← List.take_add, Nat.add_sub_cancel' le]
  simp only [skip]
  rw [more, Caret.advanceOver_append]
  exact Caret.le_advanceOver _ _

/-- A token comes with an error if it is invalid, and then the error lies in it. -/
theorem error?_of_next? {cursor after : Cursor} {found : Scanned}
    (next : cursor.next? = some (found, after)) :
    (found.token.kind ≠ .invalid ∧ found.error? = none) ∨
      ∃ error, found.token.kind = .invalid ∧ found.error? = some error ∧ error.In found.token := by
  obtain ⟨c, rest, text⟩ := exists_cons next
  unfold next? at next
  rw [text] at next
  dsimp only at next
  split at next <;> simp only [Option.some.injEq, Prod.mk.injEq] at next <;>
    obtain ⟨rfl, rfl⟩ := next
  · rename_i verdict
    exact .inl ⟨valid_of_lexeme verdict, rfl⟩
  · rename_i position verdict
    refine .inr ⟨_, rfl, rfl, ?_⟩
    have le := Nat.le_trans (within_lexeme c rest _ _ verdict) (Nat.le_max_right 1 _)
    have start := caret_skip_le cursor (Nat.zero_le (max 1 (lexeme c rest).length))
    have here : (cursor.skip 0).caret = cursor.caret := rfl
    rw [here] at start
    rw [LexicalError.In, Span.ofCarets_eq start]
    have inside := caret_skip_le cursor (Nat.zero_le position)
    rw [here] at inside
    exact ⟨inside, caret_skip_le cursor le⟩

/-- There is one error for each invalid token, in the same order, and it lies in the token. -/
theorem forall₂_scan (cursor : Cursor) :
    List.Forall₂ LexicalError.In (cursor.scan.filterMap Scanned.error?)
      (cursor.read.filter (·.kind = .invalid)) := by
  cases next : cursor.next? with
  | none =>
      rw [read, scan_of_none next]
      exact .nil
  | some found =>
      obtain ⟨found, after⟩ := found
      have shorter := length_next? next
      rw [read_of_some next, scan_of_some next, List.filterMap_cons, List.filter_cons]
      obtain ⟨valid, none⟩ | ⟨error, invalid, some, inside⟩ := error?_of_next? next
      · rw [none, if_neg (by simpa using valid)]
        exact forall₂_scan after
      · rw [some, if_pos (by simpa using invalid)]
        exact .cons inside (forall₂_scan after)
termination_by cursor.rest.length

end Cursor
end StarlarkSyntax
