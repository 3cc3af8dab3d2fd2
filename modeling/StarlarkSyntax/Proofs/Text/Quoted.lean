import StarlarkSyntax.Text.Quoted
/-!
# Quoted texts can be read back

A quoted text stands on one line, and it is the quoted form of one text alone. Both come from how a single
character is written (`escape_cases`): as it is, with a backslash and another character, or by its hexadecimal
digits between braces. The three ways differ in their first two characters, and each of them shows where it ends,
so the characters of a text can be told apart one after another (`escape_append_inj`). That is all that is needed
of the table of characters that can be shown.
-/

set_option autoImplicit false

namespace StarlarkSyntax.Text

open StarlarkSyntax.Unicode

/-- Where two lists are cut at the first place of something, they have the same parts if they are the same. -/
theorem eq_of_append_stop {α : Type} {stop : α} {s t rest rest' : List α} (hs : stop ∉ s) (ht : stop ∉ t)
    (same : s ++ stop :: rest = t ++ stop :: rest') : s = t ∧ rest = rest' := by
  induction s generalizing t with
  | nil =>
      cases t with
      | nil => exact ⟨rfl, (List.cons.inj same).2⟩
      | cons d t => exact absurd (List.mem_cons.2 (.inl (List.cons.inj same).1)) ht
  | cons c s ih =>
      cases t with
      | nil => exact absurd (List.mem_cons.2 (.inl (List.cons.inj same).1.symm)) hs
      | cons d t =>
          obtain ⟨rfl, more⟩ := List.cons.inj same
          have parts := ih (fun mem => hs (List.mem_cons_of_mem _ mem))
            (fun mem => ht (List.mem_cons_of_mem _ mem)) more
          exact ⟨by rw [parts.1], parts.2⟩

/-! ## Hexadecimal digits -/

/-- The number that hexadecimal digits stand for. -/
def ofHex (digits : List Char) : Nat :=
  digits.foldl (fun value digit => 16 * value + ((List.range 16).map Nat.digitChar).idxOf digit) 0

theorem idxOf_digitChar {n : Nat} (small : n < 16) :
    ((List.range 16).map Nat.digitChar).idxOf n.digitChar = n := by
  have table : ∀ n < 16, ((List.range 16).map Nat.digitChar).idxOf n.digitChar = n := by decide
  exact table n small

theorem ofHex_toDigits (n : Nat) : ofHex (Nat.toDigits 16 n) = n := by
  induction n using Nat.strongRecOn with
  | ind n ih =>
      rw [Nat.toDigits_eq_if (by decide)]
      split
      · rename_i small
        simp [ofHex, idxOf_digitChar small]
      · rename_i big
        have quotient := ih (n / 16) (by omega)
        rw [ofHex] at quotient
        rw [ofHex, List.foldl_append, quotient, List.foldl_cons, List.foldl_nil,
          idxOf_digitChar (Nat.mod_lt n (by decide))]
        omega

/-- No digit is a brace or a line feed. -/
theorem ne_of_mem_toDigits (n : Nat) : ∀ digit ∈ Nat.toDigits 16 n, digit ≠ '}' ∧ digit ≠ '\n' := by
  have table : ∀ n < 16, Nat.digitChar n ≠ '}' ∧ Nat.digitChar n ≠ '\n' := by decide
  induction n using Nat.strongRecOn with
  | ind n ih =>
      rw [Nat.toDigits_eq_if (by decide)]
      intro digit mem
      split at mem
      · rename_i small
        rw [List.mem_singleton.1 mem]
        exact table n small
      · rename_i big
        rcases List.mem_append.1 mem with mem | mem
        · exact ih (n / 16) (by omega) digit mem
        · rw [List.mem_singleton.1 mem]
          exact table (n % 16) (Nat.mod_lt n (by decide))

/-- Digits before a brace are all that comes before the first one. -/
theorem toDigits_append_inj {m n : Nat} {s t : List Char}
    (same : Nat.toDigits 16 m ++ '}' :: s = Nat.toDigits 16 n ++ '}' :: t) : m = n ∧ s = t := by
  have digits (n : Nat) : '}' ∉ Nat.toDigits 16 n := fun mem => (ne_of_mem_toDigits n _ mem).1 rfl
  obtain ⟨written, rest⟩ := eq_of_append_stop (digits m) (digits n) same
  refine ⟨?_, rest⟩
  rw [← ofHex_toDigits m, ← ofHex_toDigits n, written]

/-! ## Single characters -/

theorem eq_of_shortEscape? {c d short : Char} (hc : shortEscape? c = some short)
    (hd : shortEscape? d = some short) : c = d := by
  unfold shortEscape? at hc hd
  split at hc <;> cases hc <;> split at hd <;> first | rfl | cases hd

/-- The ways in which a character is written. -/
theorem escape_cases (c : Char) :
    (∃ short, shortEscape? c = some short ∧ short ≠ 'u' ∧ short ≠ '\n' ∧ escape c = ['\\', short]) ∨
    (c ≠ '\\' ∧ c ≠ '\n' ∧ escape c = [c]) ∨
    escape c = '\\' :: 'u' :: '{' :: (Nat.toDigits 16 c.toNat ++ ['}']) := by
  cases found : shortEscape? c with
  | some short =>
      refine .inl ⟨short, rfl, ?_, ?_, by rw [escape, found]⟩ <;>
        · unfold shortEscape? at found
          split at found <;> cases found <;> decide
  | none =>
      refine .inr ?_
      by_cases shown : (isPrintable c && !isGraphemeExtend c) = true
      · refine .inl ⟨?_, ?_, by simp [escape, found, shown]⟩ <;>
          · rintro rfl
            cases found
      · refine .inr ?_
        simp [escape, found, shown]

theorem not_mem_escape (c : Char) : '\n' ∉ escape c := by
  rcases escape_cases c with ⟨short, -, -, ne, is⟩ | ⟨-, ne, is⟩ | is
  · simpa [is] using ne.symm
  · simpa [is] using ne.symm
  · rw [is]
    intro mem
    have digits : '\n' ∉ Nat.toDigits 16 c.toNat := fun mem => (ne_of_mem_toDigits _ _ mem).2 rfl
    simp [digits] at mem

/-- What is written for one character ends where it does, whatever comes after it. -/
theorem escape_append_inj {c d : Char} {s t : List Char} (same : escape c ++ s = escape d ++ t) :
    c = d ∧ s = t := by
  rcases escape_cases c with ⟨short, found, ne, -, is⟩ | ⟨ne, -, is⟩ | is <;>
    rcases escape_cases d with ⟨short', found', ne', -, is'⟩ | ⟨ne', -, is'⟩ | is' <;>
    simp only [is, is', List.cons_append, List.nil_append, List.append_assoc, List.cons.injEq,
      true_and] at same
  · obtain ⟨rfl, rest⟩ := same
    exact ⟨eq_of_shortEscape? found found', rest⟩
  · exact absurd same.1.symm ne'
  · exact absurd same.1 ne
  · exact absurd same.1 ne
  · exact same
  · exact absurd same.1 ne
  · exact absurd same.1.symm ne'
  · exact absurd same.1.symm ne'
  · obtain ⟨code, rest⟩ := toDigits_append_inj same
    exact ⟨Char.toNat_inj.1 code, rest⟩

/-! ## Whole texts -/

/-- A quoted text stands on one line. -/
theorem not_mem_quote (text : List Char) : '\n' ∉ quote text := by
  simp [quote, not_mem_escape]

/-- Different texts have different quoted forms. -/
theorem quote_inj {s t : List Char} (same : quote s = quote t) : s = t := by
  have written : s.flatMap escape = t.flatMap escape := by simpa [quote] using same
  clear same
  induction s generalizing t with
  | nil =>
      cases t with
      | nil => rfl
      | cons d t => simp [escape_ne_nil] at written
  | cons c s ih =>
      cases t with
      | nil => simp [escape_ne_nil] at written
      | cons d t =>
          rw [List.flatMap_cons, List.flatMap_cons] at written
          obtain ⟨rfl, rest⟩ := escape_append_inj written
          rw [ih rest]

end StarlarkSyntax.Text
