import StarlarkSyntax.Proofs.Lexing.Number
/-!
# String literals are read up to their closing quotes

The rule for literals looks for the closing quotes first and at the escapes only then, and the language of
literals does both at once (`Closes`). They find the same end (`extentFrom_closes`), so what the rule
reads is a literal, unless it is a fault (`sound_quoted`), and no literal that the text begins with ends
after it (`covers_literal`). An empty literal may begin three quotes; then these are read, and they
reach further.
-/

set_option autoImplicit false

namespace StarlarkSyntax.Lexeme

open Language

variable {raw bytes triple : Bool} {quote : Char} {letters quotes text more : List Char}

/-! ## Letters -/

theorem isQuote_iff {c : Char} : isQuote c = true ↔ c = '\'' ∨ c = '"' := by
  simp [isQuote]

theorem isRawLetter_iff {c : Char} : isRawLetter c = true ↔ c = 'r' ∨ c = 'R' := by
  simp [isRawLetter]

theorem isBytesLetter_iff {c : Char} : isBytesLetter c = true ↔ c = 'b' ∨ c = 'B' := by
  simp [isBytesLetter]

theorem any_letters (is : Letters raw bytes letters) :
    letters.any isRawLetter = raw ∧ letters.any isBytesLetter = bytes := by
  cases is with
  | none => exact ⟨rfl, rfl⟩
  | raw r => rcases r with rfl | rfl <;> exact ⟨rfl, rfl⟩
  | bytes b => rcases b with rfl | rfl <;> exact ⟨rfl, rfl⟩
  | rawBytes r b => rcases r with rfl | rfl <;> rcases b with rfl | rfl <;> exact ⟨rfl, rfl⟩
  | bytesRaw b r => rcases r with rfl | rfl <;> rcases b with rfl | rfl <;> exact ⟨rfl, rfl⟩

theorem letters_pair {c d : Char}
    (is : (isRawLetter c && isBytesLetter d || isBytesLetter c && isRawLetter d) = true) :
    Letters true true [c, d] := by
  simp only [Bool.or_eq_true, Bool.and_eq_true, isRawLetter_iff, isBytesLetter_iff] at is
  rcases is with ⟨r, b⟩ | ⟨b, r⟩
  · exact .rawBytes r b
  · exact .bytesRaw b r

theorem exists_letters {c : Char} (is : (isRawLetter c || isBytesLetter c) = true) :
    ∃ raw bytes, Letters raw bytes [c] := by
  simp only [Bool.or_eq_true, isRawLetter_iff, isBytesLetter_iff] at is
  rcases is with r | b
  · exact ⟨_, _, .raw r⟩
  · exact ⟨_, _, .bytes b⟩

/-- Where the letters of a literal are found, a quote comes after them. -/
theorem stringLetters?_sound (found : stringLetters? text = some letters) :
    (∃ raw bytes, Letters raw bytes letters) ∧
      ∃ quote rest, isQuote quote = true ∧ text = letters ++ quote :: rest := by
  unfold stringLetters? at found
  split at found
  · rename_i c text
    split at found
    · cases found
      exact ⟨⟨_, _, .none⟩, c, text, ‹_›, rfl⟩
    · split at found
      · rename_i d text
        split at found
        · rename_i is
          cases found
          rw [Bool.and_eq_true] at is
          exact ⟨exists_letters is.1, d, text, is.2, rfl⟩
        · split at found
          · rename_i e text
            split at found
            · rename_i is
              cases found
              rw [Bool.and_eq_true] at is
              exact ⟨⟨_, _, letters_pair is.1⟩, e, text, is.2, rfl⟩
            · cases found
          · cases found
      · cases found
  · cases found

theorem stringLetters?_complete (is : Letters raw bytes letters) (quoted : isQuote quote = true)
    (rest : List Char) : stringLetters? (letters ++ quote :: rest) = some letters := by
  rcases isQuote_iff.1 quoted with rfl | rfl
  all_goals cases is with
    | none => rfl
    | raw r => rcases r with rfl | rfl <;> rfl
    | bytes b => rcases b with rfl | rfl <;> rfl
    | rawBytes r b => rcases r with rfl | rfl <;> rcases b with rfl | rfl <;> rfl
    | bytesRaw b r => rcases b with rfl | rfl <;> rcases r with rfl | rfl <;> rfl

/-! ## Where literals end -/

/-- The quotes that open and close a literal. -/
def quotesOf (quote : Char) (triple : Bool) : List Char :=
  if triple then [quote, quote, quote] else [quote]

/-- What the search for the closing quotes finds is the end of a literal. -/
theorem closes_of_extentFrom (isQuote : isQuote quote = true) {read found : Nat}
    (closed : extentFrom quote triple read text = .closed found) :
    ∃ length, found = read + length ∧ length + (quotesOf quote triple).length ≤ text.length ∧
      Closes true (quotesOf quote triple) (text.take (length + (quotesOf quote triple).length)) := by
  fun_induction extentFrom quote triple read text with
  | case4 read c no no' is =>
      cases closed
      simp only [Bool.and_eq_true, decide_eq_true_eq, Bool.not_eq_true'] at is
      obtain ⟨rfl, rfl⟩ := is
      exact ⟨0, rfl, Nat.le_refl _, .close⟩
  | case6 read d text ih =>
      obtain ⟨length, rfl, fits, closes⟩ := ih closed
      refine ⟨length + 2, by omega, by simp only [List.length_cons]; omega, ?_⟩
      rw [Nat.add_right_comm, List.take_succ_cons, List.take_succ_cons]
      exact .escape (.inl rfl) closes
  | case8 read c d text no no' is =>
      cases closed
      simp only [Bool.and_eq_true, Bool.or_eq_true, decide_eq_true_eq, Bool.not_eq_true'] at is
      obtain ⟨rfl, rfl | ⟨rfl, third⟩⟩ := is
      · exact ⟨0, rfl, Nat.le_add_left _ _, .close⟩
      · obtain ⟨text, rfl⟩ := List.head?_eq_some_iff.1 third
        cases triple with
        | false => exact ⟨0, rfl, Nat.le_add_left _ _, .close⟩
        | true => exact ⟨0, rfl, Nat.le_add_left _ _, .close⟩
  | case9 read c d text no no' no'' ih =>
      obtain ⟨length, rfl, fits, closes⟩ := ih closed
      refine ⟨length + 1, by omega, by simp only [List.length_cons] at fits ⊢; omega, ?_⟩
      rw [Nat.add_right_comm, List.take_succ_cons]
      simp only [Bool.and_eq_true, Bool.or_eq_true, decide_eq_true_eq, Bool.not_eq_true'] at no' no''
      refine .char no (fun line => ?_) (fun quotes => no'' ?_) closes
      · cases triple with
        | false => exact absurd ⟨line, rfl⟩ no'
        | true => rfl
      · cases triple with
        | false => exact ⟨(List.cons_prefix_cons.1 quotes).1.symm, .inl rfl⟩
        | true =>
            obtain ⟨first, others⟩ := List.cons_prefix_cons.1 quotes
            obtain ⟨second, third⟩ := List.cons_prefix_cons.1 (others.trans (List.take_prefix _ _))
            obtain ⟨text, rfl⟩ := third
            exact ⟨first.symm, .inr ⟨second.symm, rfl⟩⟩
  | _ => cases closed

/-- The search for the closing quotes finds the end of a literal. -/
theorem extentFrom_closes (quoted : isQuote quote = true)
    (closes : Closes raw (quotesOf quote triple) text) (read : Nat) (more : List Char) :
    extentFrom quote triple read (text ++ more) =
      .closed (read + (text.length - (quotesOf quote triple).length)) := by
  have notBackslash : quote ≠ '\\' := by rintro rfl; cases quoted
  have notFeed : quote ≠ '\n' := by rintro rfl; cases quoted
  induction closes generalizing read with
  | close =>
      rw [Nat.sub_self]
      cases triple with
      | true => simp [quotesOf, extentFrom, notBackslash]
      | false => cases more <;> simp [quotesOf, extentFrom, notBackslash, notFeed]
  | @escape c rest valid closes ih =>
      have shorter := closes.length_le
      rw [List.cons_append, List.cons_append, extentFrom, if_pos rfl, ih]
      simp only [List.length_cons]
      congr 1
      omega
  | @char c rest other line notQuotes closes ih =>
      have shorter := closes.length_le
      have goesOn : (quotesOf quote triple).length ≠ 0 := by cases triple <;> exact nofun
      obtain ⟨d, rest, rfl⟩ := List.exists_cons_of_length_pos (l := rest) (by omega)
      have again := ih (read + 1)
      rw [List.cons_append] at again ⊢
      rw [List.cons_append, extentFrom, if_neg other, if_neg, if_neg, again]
      · simp only [List.length_cons] at shorter ⊢
        congr 1
        omega
      · intro is
        simp only [Bool.and_eq_true, Bool.or_eq_true, decide_eq_true_eq, Bool.not_eq_true'] at is
        obtain ⟨rfl, rfl | ⟨rfl, third⟩⟩ := is
        · exact notQuotes ⟨d :: rest, rfl⟩
        · cases triple with
          | false => exact notQuotes ⟨d :: rest, rfl⟩
          | true =>
              obtain ⟨e, rest, rfl⟩ := List.exists_cons_of_length_pos (l := rest)
                (Nat.lt_of_succ_lt_succ (Nat.lt_of_lt_of_le (Nat.lt_succ_of_lt Nat.one_lt_two) shorter))
              cases third
              exact notQuotes ⟨rest, rfl⟩
      · intro is
        simp only [Bool.and_eq_true, decide_eq_true_eq, Bool.not_eq_true'] at is
        rw [is.2] at line
        cases line is.1

/-! ## Escapes -/

theorem isHexDigit_iff (c : Char) : isHexDigit c = true ↔ c ∈ hexadecimalDigits := by
  refine iff_mem_of_listed (fun c digit => ?_) (by decide) (by decide +kernel) c
  simp only [isHexDigit, Bool.or_eq_true, Bool.and_eq_true, decide_eq_true_eq] at digit
  rcases digit with (decimal | lower) | upper
  · exact toNat_lt_of_isDigit decimal
  · exact toNat_lt_of_le lower.2 (by decide)
  · exact toNat_lt_of_le upper.2 (by decide)

theorem isOctalDigit_iff (c : Char) : ('0' ≤ c && c ≤ '7') = true ↔ c ∈ octalDigits := by
  have below (c : Char) (digit : ('0' ≤ c && c ≤ '7') = true) : c.toNat < 128 := by
    simp only [Bool.and_eq_true, decide_eq_true_eq] at digit
    exact toNat_lt_of_le digit.2 (by decide)
  exact iff_mem_of_listed below (by decide) (by decide +kernel) c

theorem escapeDigits?_mem {c : Char} {count : Nat} (is : escapeDigits? c = some count) :
    (c, count) ∈ [('x', 2), ('u', 4), ('U', 8)] := by
  unfold escapeDigits? at is
  split at is
  · cases is
    simp [*]
  split at is
  · cases is
    simp [*]
  split at is
  · cases is
    simp [*]
  · cases is

/-- What makes an escape goes on doing so whatever follows the contents of the literal. -/
theorem escape_of_isEscape {c : Char} (is : isEscape c text = true) (more : List Char) :
    Escape c (text ++ more) := by
  simp only [isEscape, Bool.or_eq_true] at is
  rcases is with (letter | octal) | hexadecimal
  · exact .letter _ (List.contains_iff_mem.1 letter)
  · exact .octal _ ((isOctalDigit_iff c).1 octal)
  · obtain ⟨count, found, is⟩ := (Option.any_eq_true _ _).1 hexadecimal
    simp only [Bool.and_eq_true, beq_iff_eq] at is
    rw [← List.take_append_drop count text, List.append_assoc]
    refine .hexadecimal _ ?_ fun d mem => (isHexDigit_iff d).1 (List.all_eq_true.1 is.2 d mem)
    rw [is.1]
    exact escapeDigits?_mem found

/-- A literal whose contents have no faulty escape is one that is not raw. -/
theorem closes_of_escapes (closes : Closes true quotes text) {read : Nat}
    (valid : invalidEscape? read (text.take (text.length - quotes.length)) = none) :
    Closes false quotes text := by
  induction closes generalizing read with
  | close => exact .close
  | @escape c rest _ closes ih =>
      have shorter := closes.length_le
      have contents : ('\\' :: c :: rest).take (('\\' :: c :: rest).length - quotes.length) =
          '\\' :: c :: rest.take (rest.length - quotes.length) := by
        rw [List.length_cons, List.length_cons, Nat.sub_add_comm (by omega), Nat.sub_add_comm shorter,
          List.take_succ_cons, List.take_succ_cons]
      rw [contents, invalidEscape?, if_pos rfl] at valid
      split at valid
      · rename_i is
        have escape := escape_of_isEscape is (rest.drop (rest.length - quotes.length))
        rw [List.take_append_drop] at escape
        exact .escape (.inr escape) (ih valid)
      · cases valid
  | @char c rest other line notQuotes closes ih =>
      have shorter := closes.length_le
      have contents : (c :: rest).take ((c :: rest).length - quotes.length) =
          c :: rest.take (rest.length - quotes.length) := by
        rw [List.length_cons, Nat.sub_add_comm shorter, List.take_succ_cons]
      rw [contents] at valid
      refine .char other line notQuotes (@ih (read + 1) ?_)
      cases rest' : rest.take (rest.length - quotes.length) with
      | nil => rfl
      | cons d rest' =>
          rw [rest', invalidEscape?, if_neg other] at valid
          exact valid

/-! ## Literals -/

/-- The text after the first quote of a literal: the others, and what comes after them. -/
theorem quotes_append (quote : Char) (text : List Char) :
    quote :: text = quotesOf quote (text.take 2 == [quote, quote]) ++
      text.drop ((if text.take 2 == [quote, quote] then 3 else 1) - 1) := by
  split
  · rename_i triple
    rw [triple, ← List.take_append_drop 2 text, eq_of_beq triple]
    rfl
  · rename_i single
    rw [Bool.not_eq_true] at single
    rw [single]
    rfl

theorem length_quotesOf (quote : Char) (triple : Bool) :
    (quotesOf quote triple).length = if triple then 3 else 1 := by
  cases triple <;> rfl

theorem quotes_quotesOf (quoted : isQuote quote = true) (triple : Bool) :
    Quotes (quotesOf quote triple) := by
  cases triple with
  | true => exact .three (isQuote_iff.1 quoted)
  | false => exact .one (isQuote_iff.1 quoted)

/-- What is read as a literal is one. -/
theorem sound_quoted (is : Letters raw bytes letters) (isQuote : isQuote quote = true)
    (text : List Char) : (quoted letters quote text).Sound (letters ++ quote :: text) := by
  have split := quotes_append quote text
  have length := length_quotesOf quote (text.take 2 == [quote, quote])
  have quotes := quotes_quotesOf isQuote (text.take 2 == [quote, quote])
  unfold quoted
  dsimp only
  generalize (text.take 2 == [quote, quote]) = triple at split length quotes ⊢
  generalize (if triple then 3 else 1) = count at split length ⊢
  split
  · exact sound_ofFault _ _ _ _
  · rename_i found closed
    obtain ⟨contents, same, fits, closes⟩ := closes_of_extentFrom isQuote closed
    rw [Nat.zero_add] at same
    subst same
    rw [length] at fits closes
    have taken : (letters ++ quote :: text).take (letters.length + count + found + count) =
        letters ++ quotesOf quote triple ++ (text.drop (count - 1)).take (found + count) := by
      rw [split, ← List.append_assoc, Nat.add_assoc, ← length, ← List.length_append,
        List.take_length_add_append]
    obtain ⟨isRaw, isBytes⟩ := any_letters is
    have literal {raw' : Bool} (same : raw' = raw) (closes : Closes raw' (quotesOf quote triple)
        ((text.drop (count - 1)).take (found + count))) :
        (ofKind (letters.length + count + found + count)
          (if letters.any isBytesLetter then Kind.bytes else Kind.string)).Sound
          (letters ++ quote :: text) := by
      subst same
      refine sound_ofKind ?_
      rw [taken, isBytes]
      cases bytes with
      | true => exact .bytes (.mk is quotes closes)
      | false => exact .string (.mk is quotes closes)
    split
    · rename_i rawLetter
      exact literal (rawLetter.symm.trans isRaw) closes
    · rename_i notRaw
      split
      · exact sound_ofFault _ _ _ _
      · rename_i valid
        rw [Bool.not_eq_true] at notRaw
        refine literal (notRaw.symm.trans isRaw) (@closes_of_escapes _ _ closes 0 ?_)
        rw [List.length_take_of_le fits, List.take_take, length, Nat.add_sub_cancel,
          Nat.min_eq_left (Nat.le_add_right _ _)]
        exact valid

theorem sound_stringLiteral? {literal : Lexeme} (found : stringLiteral? text = some literal) :
    literal.Sound text := by
  unfold stringLiteral? at found
  split at found
  · cases found
  · rename_i letters letters'
    obtain ⟨⟨raw, bytes, is⟩, quote, rest, quoted, rfl⟩ := stringLetters?_sound letters'
    rw [List.drop_left] at found
    cases found
    exact sound_quoted is quoted rest

end StarlarkSyntax.Lexeme
