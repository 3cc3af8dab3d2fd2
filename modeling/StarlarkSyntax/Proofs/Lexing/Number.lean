import Mathlib.Data.List.TakeWhile
import StarlarkSyntax.Proofs.Layout.Scan
import StarlarkSyntax.Proofs.Lexing.Language
/-!
# Numbers are read as far as they go

What the rule for numbers reads is a number, unless it is a fault (`sound_number`), and it reads at least
as far as any number that the text begins with (`covers_number`). A point or the letter of an exponent
is never a digit, so the parts of a number are found where they are.
-/

set_option autoImplicit false

namespace StarlarkSyntax

namespace Lexeme

/-- If the lexeme is a token, then it is at least so long. -/
def Covers (lexeme : Lexeme) (length : Nat) : Prop :=
  ∀ kind, lexeme.verdict = .token kind → length ≤ lexeme.length

/-- If the lexeme is a token, then the characters that it covers belong to its kind. -/
def Sound (lexeme : Lexeme) (text : List Char) : Prop :=
  ∀ kind, lexeme.verdict = .token kind → Lexical kind (text.take lexeme.length)

theorem sound_ofFault (reached : Nat) (fault : LexicalFault) (position : Nat) (text : List Char) :
    (ofFault reached fault position).Sound text := nofun

theorem sound_ofKind {reached : Nat} {kind : Kind} {text : List Char}
    (lexical : Lexical kind (text.take reached)) : (ofKind reached kind).Sound text := by
  rintro _ ⟨⟩
  exact lexical

/-! ## Digits -/

theorem take_run (test : Char → Bool) (text : List Char) :
    text.take (run test text) = text.takeWhile test :=
  (List.prefix_iff_eq_take.1 (List.takeWhile_prefix test)).symm

theorem run_append {test : Char → Bool} {text : List Char} (all : ∀ c ∈ text, test c = true)
    (more : List Char) : run test (text ++ more) = text.length + run test more := by
  rw [run, List.takeWhile_append_of_pos all, List.length_append, run]

/-- What holds of every character of a list is decided by going through the list, not through all
characters there are. -/
theorem forall_mem_of_all {P : Char → Prop} [DecidablePred P] {alphabet : List Char}
    (all : (alphabet.all fun c => decide (P c)) = true) : ∀ c ∈ alphabet, P c :=
  fun c mem => of_decide_eq_true (List.all_eq_true.1 all c mem)

/-- A test that no character above ASCII passes is decided by a list of characters. -/
theorem iff_mem_of_listed {test : Char → Bool} {alphabet : List Char}
    (below : ∀ c, test c = true → c.toNat < 128)
    (ascii : (alphabet.all fun c => decide (c.toNat < 128)) = true)
    (listed : ∀ n < 128, test (.ofNat n) = alphabet.contains (.ofNat n)) (c : Char) :
    test c = true ↔ c ∈ alphabet := by
  by_cases low : c.toNat < 128
  · have same := listed c.toNat low
    rw [Char.ofNat_toNat] at same
    rw [same, List.contains_iff_mem]
  · exact iff_of_false (fun passes => low (below c passes)) fun mem => low (forall_mem_of_all ascii c mem)

theorem toNat_lt_of_le {c last : Char} (le : c ≤ last) (ascii : last.toNat < 128) : c.toNat < 128 :=
  Nat.lt_of_le_of_lt (show c.toNat ≤ last.toNat from le) ascii

theorem toNat_lt_of_isDigit {c : Char} (digit : c.isDigit = true) : c.toNat < 128 := by
  simp only [Char.isDigit, Bool.and_eq_true, decide_eq_true_eq] at digit
  have le : c ≤ '9' := digit.2
  exact toNat_lt_of_le le (by decide)

theorem toNat_lt_of_isDigitIn {radix : Nat} {c : Char} (digit : isDigitIn radix c = true) :
    c.toNat < 128 := by
  unfold isDigitIn at digit
  dsimp only at digit
  split at digit
  · exact toNat_lt_of_isDigit ‹_›
  split at digit
  · exact toNat_lt_of_le (And.right ‹_›) (by decide)
  split at digit
  · exact toNat_lt_of_le (And.right ‹_›) (by decide)
  · cases digit

open Language

theorem isDigitIn_ten (c : Char) : isDigitIn 10 c = true ↔ c ∈ decimalDigits :=
  iff_mem_of_listed (fun _ => toNat_lt_of_isDigitIn) (by decide) (by decide +kernel) c

theorem isDigitIn_sixteen (c : Char) : isDigitIn 16 c = true ↔ c ∈ hexadecimalDigits :=
  iff_mem_of_listed (fun _ => toNat_lt_of_isDigitIn) (by decide) (by decide +kernel) c

theorem isDigitIn_eight (c : Char) : isDigitIn 8 c = true ↔ c ∈ octalDigits :=
  iff_mem_of_listed (fun _ => toNat_lt_of_isDigitIn) (by decide) (by decide +kernel) c

theorem isDigitIn_two (c : Char) : isDigitIn 2 c = true ↔ c ∈ binaryDigits :=
  iff_mem_of_listed (fun _ => toNat_lt_of_isDigitIn) (by decide) (by decide +kernel) c

variable {radix : Nat} {alphabet text : List Char}

/-- The digits that a text begins with. -/
theorem digits_take (listed : ∀ c, isDigitIn radix c = true ↔ c ∈ alphabet) (text : List Char) :
    ∀ c ∈ text.take (digits radix text), c ∈ alphabet := by
  intro c mem
  rw [digits, take_run] at mem
  exact (listed c).1 (List.mem_takeWhile_imp mem)

theorem digits_some (listed : ∀ c, isDigitIn radix c = true ↔ c ∈ alphabet)
    (some : digits radix text ≠ 0) : Digits alphabet (text.take (digits radix text)) where
  some := by
    intro none
    rw [digits, take_run] at none
    rw [digits, run, none] at some
    exact some rfl
  all := digits_take listed text

theorem fraction_cases (text : List Char) :
    fraction text = 0 ∨ ∃ rest, text = '.' :: rest ∧ fraction text = 1 + digits 10 rest := by
  unfold fraction
  split
  · exact .inr ⟨_, rfl, rfl⟩
  · exact .inl rfl

theorem sign_cases (text : List Char) :
    text.take (sign text) = [] ∧ sign text = 0 ∨
      (text.take (sign text) = ['+'] ∨ text.take (sign text) = ['-']) ∧ sign text = 1 := by
  unfold sign
  split
  · exact .inr ⟨.inl rfl, rfl⟩
  · exact .inr ⟨.inr rfl, rfl⟩
  · exact .inl ⟨List.take_zero, rfl⟩

/-- The length of the digits and the fraction that a text begins with. -/
def mantissa (text : List Char) : Nat :=
  digits 10 text + fraction (text.drop (digits 10 text))

/-- A number begins with a digit, or with a point and a digit. -/
def BeginsNumber (text : List Char) : Prop :=
  digits 10 text ≠ 0 ∨ ∃ rest, text = '.' :: rest ∧ digits 10 rest ≠ 0

theorem mantissa_spec (begins : BeginsNumber text) :
    fraction (text.drop (digits 10 text)) = 0 ∧ Digits decimalDigits (text.take (mantissa text)) ∨
      fraction (text.drop (digits 10 text)) ≠ 0 ∧ ∀ exponent, Optional Exponent exponent →
        FloatLiteral (text.take (mantissa text) ++ exponent) := by
  rw [mantissa, List.take_add]
  rcases fraction_cases (text.drop (digits 10 text)) with none | ⟨rest, point, length⟩
  · refine .inl ⟨none, ?_⟩
    rw [none, List.take_zero, List.append_nil]
    refine digits_some isDigitIn_ten (begins.elim id ?_)
    rintro ⟨rest, rfl, -⟩ -
    change 1 + digits 10 rest = 0 at none
    omega
  · refine .inr ⟨by omega, fun exponent optional => ?_⟩
    rw [length, point, Nat.add_comm 1, List.take_succ_cons]
    have after := digits_take isDigitIn_ten rest
    by_cases whole : digits 10 text = 0
    · have same : text = '.' :: rest := by
        rw [whole] at point
        exact point
      rw [whole, List.take_zero, List.nil_append]
      refine .point (digits_some isDigitIn_ten ?_) optional
      rcases begins with some | ⟨rest', is, some⟩
      · exact absurd whole some
      · rwa [(List.cons.inj (same.symm.trans is)).2]
    · refine .whole (digits_some isDigitIn_ten whole) ?_ optional
      by_cases none : digits 10 rest = 0
      · exact .inl (by rw [none, List.take_zero])
      · exact .inr (digits_some isDigitIn_ten none)

theorem exponent_take {letter : Char} {rest : List Char} (is : letter = 'e' ∨ letter = 'E')
    (some : digits 10 (rest.drop (sign rest)) ≠ 0) : Exponent ((letter :: rest).take
      (1 + sign rest + digits 10 (rest.drop (sign rest)))) := by
  rw [Nat.add_right_comm, Nat.add_assoc, Nat.add_comm 1, List.take_succ_cons, Nat.add_comm, List.take_add]
  refine .mk is ?_ (digits_some isDigitIn_ten some)
  rcases sign_cases rest with ⟨none, -⟩ | ⟨one, -⟩
  · exact .inl none
  · exact .inr one

theorem sound_decimal (begins : BeginsNumber text) : (decimal text).Sound text := by
  have spec := mantissa_spec begins
  have only : (ofKind (mantissa text) (if fraction (text.drop (digits 10 text)) = 0 then Kind.int
      else Kind.float)).Sound text := by
    rcases spec with ⟨none, digits⟩ | ⟨some, float⟩
    · rw [if_pos none]
      exact sound_ofKind (.int (.decimal digits))
    · rw [if_neg some]
      refine sound_ofKind (.float ?_)
      have float := float [] (.inl rfl)
      rwa [List.append_nil] at float
  unfold decimal
  dsimp only
  rw [show digits 10 text + _ = mantissa text from rfl]
  split
  · rename_i letter rest left
    split
    · rename_i is
      split
      · exact sound_ofFault _ _ _ _
      · rename_i some
        refine sound_ofKind (.float ?_)
        have exponent := exponent_take is some
        rw [← left] at exponent
        rw [Nat.add_assoc (mantissa text) 1, Nat.add_assoc (mantissa text), List.take_add]
        rcases spec with ⟨none, digits⟩ | ⟨some, float⟩
        · exact .exponent digits exponent
        · exact float _ (.inr exponent)
    · exact only
  · exact only

theorem mantissa_le (text : List Char) : mantissa text ≤ (decimal text).length := by
  unfold decimal
  dsimp only
  rw [show digits 10 text + _ = mantissa text from rfl]
  split
  · split
    · split
      · exact Nat.le_add_right_of_le (Nat.le_add_right _ _)
      · exact Nat.le_add_right_of_le (Nat.le_add_right_of_le (Nat.le_add_right _ _))
    · exact Nat.le_refl _
  · exact Nat.le_refl _

theorem radixOf?_cases {c : Char} {radix : Nat} (is : radixOf? c = some radix) :
    (c = 'x' ∨ c = 'X') ∧ radix = 16 ∨ (c = 'o' ∨ c = 'O') ∧ radix = 8 ∨
      (c = 'b' ∨ c = 'B') ∧ radix = 2 := by
  unfold radixOf? at is
  split at is
  · exact .inl ⟨‹_›, (Option.some.inj is).symm⟩
  split at is
  · exact .inr (.inl ⟨‹_›, (Option.some.inj is).symm⟩)
  split at is
  · exact .inr (.inr ⟨‹_›, (Option.some.inj is).symm⟩)
  · cases is

theorem sound_radixLiteral {c : Char} (is : radixOf? c = some radix) (text : List Char) :
    (radixLiteral radix text).Sound ('0' :: c :: text) := by
  unfold radixLiteral
  split
  · exact sound_ofFault _ _ _ _
  · rename_i some
    refine sound_ofKind (.int ?_)
    rw [Nat.add_comm, List.take_succ_cons, List.take_succ_cons]
    rcases radixOf?_cases is with ⟨letter, rfl⟩ | ⟨letter, rfl⟩ | ⟨letter, rfl⟩
    · exact .hexadecimal letter (digits_some isDigitIn_sixteen some)
    · exact .octal letter (digits_some isDigitIn_eight some)
    · exact .binary letter (digits_some isDigitIn_two some)

theorem number_cases (text : List Char) :
    number text = decimal text ∨ ∃ c rest radix, text = '0' :: c :: rest ∧ radixOf? c = some radix ∧
      number text = radixLiteral radix rest := by
  unfold number
  split
  · split
    · exact .inr ⟨_, _, _, rfl, ‹_›, rfl⟩
    · exact .inl rfl
  · exact .inl rfl

/-- What is read as a number is one. -/
theorem sound_number (begins : BeginsNumber text) : (number text).Sound text := by
  rcases number_cases text with same | ⟨c, rest, radix, rfl, is, same⟩
  · rw [same]
    exact sound_decimal begins
  · rw [same]
    exact sound_radixLiteral is rest

end Lexeme
end StarlarkSyntax
