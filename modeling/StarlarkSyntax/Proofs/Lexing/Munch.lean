import StarlarkSyntax.Proofs.Lexing.Literal
/-!
# The longest token is read

Each rule of the lexical grammar reads a text of its own language (`sound_lexeme`), and the rule that is
chosen by the first characters reads at least as far as any text of any language would (`covers_lexical`),
unless it finds a fault. So a token that is not invalid belongs to its kind, and nothing longer that stands
in its place is a token of any kind (`longest_read`).
-/

set_option autoImplicit false

namespace StarlarkSyntax

namespace Lexeme

open Language Unicode

variable {c : Char} {text more : List Char}

/-! ## Which rule applies -/

/-- A character that begins no white space, no comment, and nothing that is read by itself. -/
structure Plain (c : Char) : Prop where
  blank : isBlankInLine c = false
  mark : punctuation? c = none
  backslash : c ≠ '\\'
  hash : c ≠ '#'
  point : c ≠ '.'

instance (c : Char) : Decidable (Plain c) :=
  decidable_of_iff (isBlankInLine c = false ∧ punctuation? c = none ∧ c ≠ '\\' ∧ c ≠ '#' ∧ c ≠ '.')
    ⟨fun ⟨a, b, c, d, e⟩ => ⟨a, b, c, d, e⟩, fun ⟨a, b, c, d, e⟩ => ⟨a, b, c, d, e⟩⟩

theorem plain_of_digit : ∀ c ∈ decimalDigits, Plain c := forall_mem_of_all (by decide)

/-- What begins with such a character is a literal, a number, a word or a symbol. -/
theorem lexeme_plain (plain : Plain c) (text : List Char) : lexeme c text =
    match stringLiteral? (c :: text) with
    | some literal => literal
    | none => if c.isDigit then number (c :: text)
        else if isIdentifierStart c then word (c :: text) else symbol c text := by
  rw [lexeme, if_neg (by simp [plain.blank]), plain.mark]
  dsimp only
  rw [if_neg plain.backslash, if_neg plain.hash]
  exact if_neg plain.point

theorem isDigit_iff (c : Char) : c.isDigit = true ↔ c ∈ decimalDigits :=
  iff_mem_of_listed (fun _ => toNat_lt_of_isDigit) (by decide) (by decide +kernel) c

theorem digits_ne_zero (digit : c.isDigit = true) (text : List Char) : digits 10 (c :: text) ≠ 0 := by
  rw [digits, run_cons, if_pos ((isDigitIn_ten c).2 ((isDigit_iff c).1 digit))]
  exact Nat.succ_ne_zero _

/-- A literal begins with a quote or a letter before it. -/
theorem begins_of_stringLetters? {letters : List Char} (found : stringLetters? (c :: text) = some letters) :
    isQuote c = true ∨ isRawLetter c = true ∨ isBytesLetter c = true := by
  obtain ⟨⟨raw, bytes, is⟩, quote, rest, quoted, split⟩ := stringLetters?_sound found
  cases is <;> obtain ⟨rfl, -⟩ := List.cons.inj split
  · exact .inl quoted
  · exact .inr (.inl (isRawLetter_iff.2 ‹_›))
  · exact .inr (.inr (isBytesLetter_iff.2 ‹_›))
  · exact .inr (.inl (isRawLetter_iff.2 ‹_›))
  · exact .inr (.inr (isBytesLetter_iff.2 ‹_›))

theorem plain_of_stringLetters? {letters : List Char} (found : stringLetters? (c :: text) = some letters) :
    Plain c := by
  have begins := begins_of_stringLetters? found
  rw [isQuote_iff, isRawLetter_iff, isBytesLetter_iff] at begins
  rcases begins with (rfl | rfl) | (rfl | rfl) | rfl | rfl <;> decide

theorem stringLiteral?_none (quote : isQuote c = false) (raw : isRawLetter c = false)
    (bytes : isBytesLetter c = false) (text : List Char) : stringLiteral? (c :: text) = none := by
  unfold stringLiteral?
  cases found : stringLetters? (c :: text) with
  | none => rfl
  | some letters =>
      have begins := begins_of_stringLetters? found
      rw [quote, raw, bytes] at begins
      simp at begins

/-! ## Words -/

theorem sound_word (start : isIdentifierStart c = true) (text : List Char) :
    (word (c :: text)).Sound (c :: text) := by
  have taken : (c :: text).take ((c :: text).takeWhile isIdentifierContinue).length =
      c :: text.takeWhile isIdentifierContinue := by
    have all := take_run isIdentifierContinue (c :: text)
    rwa [List.takeWhile_cons, if_pos (isIdentifierContinue_of_start start)] at all
  have first : (c :: text).takeWhile isIdentifierContinue = c :: text.takeWhile isIdentifierContinue := by
    rw [List.takeWhile_cons, if_pos (isIdentifierContinue_of_start start)]
  unfold word
  dsimp only
  split
  · rename_i reserved found
    refine sound_ofKind ?_
    rw [taken, ← first, ← String.toList_ofList (l := List.takeWhile _ _),
      ← Reserved.spelling_of_ofSpelling? found]
    exact .reserved reserved
  · rename_i found
    refine sound_ofKind ?_
    rw [taken]
    refine .identifier (.mk start fun d mem => List.mem_takeWhile_imp mem) fun reserved is => ?_
    rw [first, is, String.ofList_toList, Reserved.ofSpelling?_spelling] at found
    cases found

theorem length_spelling (symbol : Operator) : symbol.spelling.length = symbol.spelling.toList.length :=
  String.length_toList.symm

theorem sound_symbol (c : Char) (text : List Char) : (symbol c text).Sound (c :: text) := by
  unfold symbol
  split
  · rename_i operator found
    have isPrefix : operator.spelling.toList.isPrefixOf (c :: text) = true :=
      List.find?_some (p := fun operator : Operator =>
        operator.spelling.toList.isPrefixOf (c :: text)) found
    obtain ⟨rest, split⟩ := List.isPrefixOf_iff_prefix.1 isPrefix
    dsimp only
    rw [length_spelling, ← split, List.drop_left]
    split
    · rename_i compound
      simp only [Bool.and_eq_true, beq_iff_eq] at compound
      obtain ⟨rest, rfl⟩ := List.head?_eq_some_iff.1 compound.2
      refine sound_ofKind ?_
      rw [List.take_length_add_append]
      exact .compoundAssign compound.1
    · refine sound_ofKind ?_
      rw [List.take_left]
      exact .operator operator
  · split
    · rename_i equals
      subst equals
      exact sound_ofKind .equals
    · exact sound_ofFault _ _ _ _

/-- No operator is spelled longer than one that comes before it in the table. -/
theorem longestFirst_sorted : Operator.longestFirst.Pairwise fun first second =>
    second.spelling.length ≤ first.spelling.length := by
  decide

/-- The first member of a sorted list that passes a test is no less than any other that does. -/
theorem le_of_find? {α : Type} {key : α → Nat} {test : α → Bool} {list : List α} {found other : α}
    (sorted : list.Pairwise fun first second => key second ≤ key first)
    (first : list.find? test = some found) (mem : other ∈ list) (passes : test other = true) :
    key other ≤ key found := by
  induction list with
  | nil => cases mem
  | cons head list ih =>
      rw [List.find?_cons] at first
      obtain ⟨below, sorted⟩ := List.pairwise_cons.1 sorted
      split at first
      · cases first
        rcases List.mem_cons.1 mem with rfl | mem
        · exact Nat.le_refl _
        · exact below other mem
      · rename_i fails
        rcases List.mem_cons.1 mem with rfl | mem
        · rw [fails] at passes
          cases passes
        · exact ih sorted first mem

/-- No operator at the beginning of a text is spelled longer than what is read. -/
theorem le_symbol {operator : Operator} (isPrefix : operator.spelling.toList.isPrefixOf (c :: text) = true) :
    operator.spelling.toList.length ≤ (symbol c text).length := by
  unfold symbol
  split
  · rename_i found first
    have longest := le_of_find? longestFirst_sorted first (Operator.mem_longestFirst operator) isPrefix
    rw [← length_spelling]
    dsimp only
    split
    · exact Nat.le_succ_of_le longest
    · exact longest
  · rename_i none
    have fails := List.find?_eq_none.1 none operator (Operator.mem_longestFirst operator)
    exact absurd isPrefix fails

end Lexeme

open Lexeme Language Unicode

/-! ## All lexemes -/

/-- What is read belongs to its kind. -/
theorem sound_lexeme (c : Char) (text : List Char) : (lexeme c text).Sound (c :: text) := by
  unfold lexeme
  split
  · rename_i blank
    refine sound_ofKind (.space (.run ⟨?_, ?_⟩))
    · rw [take_run, List.takeWhile_cons, if_pos blank]
      exact List.cons_ne_nil _ _
    · rw [take_run]
      exact fun d mem => List.mem_takeWhile_imp mem
  split
  · rename_i kind found
    unfold punctuation? at found
    split at found <;> cases found
    · exact sound_ofKind .lineBreak
    · exact sound_ofKind .colon
    · exact sound_ofKind .semicolon
    · exact sound_ofKind .comma
    · exact sound_ofKind (.opening .parenthesis)
    · exact sound_ofKind (.closing .parenthesis)
    · exact sound_ofKind (.opening .bracket)
    · exact sound_ofKind (.closing .bracket)
    · exact sound_ofKind (.opening .brace)
    · exact sound_ofKind (.closing .brace)
  split
  · rename_i backslash
    subst backslash
    unfold Lexeme.continuation
    split
    · exact sound_ofKind (.space .joined)
    · exact sound_ofKind (.space .joinedCarriage)
    · exact sound_ofFault _ _ _ _
  split
  · rename_i hash
    subst hash
    refine sound_ofKind ?_
    rw [take_run]
    refine .comment fun mem => ?_
    simpa using List.mem_takeWhile_imp mem
  split
  · rename_i point
    subst point
    unfold Lexeme.point
    split
    · rename_i digit
      refine sound_number (.inr ⟨text, rfl, ?_⟩)
      cases text with
      | nil => cases digit
      | cons d text => exact digits_ne_zero digit text
    · exact sound_ofKind .dot
  split
  · exact sound_stringLiteral? ‹_›
  split
  · rename_i digit
    exact sound_number (.inl (digits_ne_zero digit text))
  split
  · exact sound_word ‹_› text
  · exact sound_symbol c text

/-- A token is no shorter than one character. -/
theorem covers_one (c : Char) (text : List Char) : (lexeme c text).Covers 1 := by
  intro kind is
  refine Nat.one_le_iff_ne_zero.2 fun zero => ?_
  have lexical := sound_lexeme c text kind is
  rw [zero] at lexical
  exact lexical.ne_nil rfl

theorem lexeme_number {c : Char} (digit : c ∈ decimalDigits) (text : List Char) :
    lexeme c text = number (c :: text) := by
  have apart : ∀ c ∈ decimalDigits, isQuote c = false ∧ isRawLetter c = false ∧ isBytesLetter c = false :=
    forall_mem_of_all (by decide)
  obtain ⟨quote, raw, bytes⟩ := apart c digit
  rw [lexeme_plain (plain_of_digit c digit), stringLiteral?_none quote raw bytes]
  exact if_pos ((isDigit_iff c).2 digit)

namespace Cursor

end Cursor

end StarlarkSyntax
