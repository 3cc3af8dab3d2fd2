import StarlarkSyntax.Proofs.Layout.Scan
import StarlarkSyntax.Proofs.Lexing.Local
/-!
# Literals with carriage returns before line feeds

A text may have a carriage return before each line feed (`withReturns`). Then a literal at its beginning is of
the same kind, and goes as far as it did before (`widens_quoted`), unless it has a backslash right before the
end of a line: there the carriage return comes between the two, and is no escape. A literal that is given up at
the end of its line goes on over the carriage return.
-/

set_option autoImplicit false

namespace StarlarkSyntax

open Lexeme

/-! ## Texts -/

/-- A text with a carriage return before each line feed. -/
def withReturns (text : List Char) : List Char :=
  text.flatMap fun c => if c = '\n' then ['\r', '\n'] else [c]

@[simp] theorem withReturns_nil : withReturns [] = [] := rfl

@[simp] theorem withReturns_lineFeed (text : List Char) :
    withReturns ('\n' :: text) = '\r' :: '\n' :: withReturns text := rfl

theorem withReturns_cons {c : Char} (other : c ≠ '\n') (text : List Char) :
    withReturns (c :: text) = c :: withReturns text := by
  rw [withReturns, List.flatMap_cons, if_neg other]
  rfl

@[simp] theorem withReturns_append (s t : List Char) :
    withReturns (s ++ t) = withReturns s ++ withReturns t := List.flatMap_append

theorem withReturns_eq_self {text : List Char} (line : '\n' ∉ text) : withReturns text = text := by
  induction text with
  | nil => rfl
  | cons c text ih =>
      rw [List.mem_cons, not_or] at line
      rw [withReturns_cons (Ne.symm line.1), ih line.2]

/-- A line is joined with the next one in the text. -/
def Joins (text : List Char) : Prop := ['\\', '\n'] <:+: text

instance (text : List Char) : Decidable (Joins text) :=
  inferInstanceAs (Decidable (['\\', '\n'] <:+: text))

theorem Joins.cons {text : List Char} (joins : Joins text) (c : Char) : Joins (c :: text) :=
  List.infix_cons joins

theorem Joins.here (text : List Char) : Joins ('\\' :: '\n' :: text) := ⟨[], text, rfl⟩

/-- How many more characters are covered with carriage returns, by what comes next: none, or the carriage
return before a line feed. -/
inductive Further : List Char → Nat → Prop
  | none {left : List Char} : Further left 0
  | carriage {tail : List Char} : Further ('\n' :: tail) 1

/-! ## Literals -/

namespace Lexeme

variable {quote : Char} {triple : Bool} {letters text : List Char}

theorem take_two_withReturns (quoted : isQuote quote = true) (text : List Char) :
    ((withReturns text).take 2 == [quote, quote]) = (text.take 2 == [quote, quote]) := by
  have feed : ('\n' == quote) = false := beq_eq_false_iff_ne.2 (ne_of_isQuote quoted (by decide))
  have carriage : ('\r' == quote) = false := beq_eq_false_iff_ne.2 (ne_of_isQuote quoted (by decide))
  match text with
  | [] => rfl
  | [c] =>
      by_cases first : c = '\n'
      · subst first
        simp [carriage]
      · rw [withReturns_cons first]
        rfl
  | c :: d :: text =>
      by_cases first : c = '\n'
      · subst first
        simp [feed, carriage]
      by_cases second : d = '\n'
      · subst second
        rw [withReturns_cons first]
        simp [feed, carriage]
      · rw [withReturns_cons first, withReturns_cons second]
        rfl

/-- Where the contents of a literal end in a text, and where they end with carriage returns in it. -/
inductive Stopped (quote : Char) (triple : Bool) (text inside : List Char) : List Char → Prop
  | closed {more : List Char} :
      (∀ read, extentFrom quote triple read text = .closed (read + inside.length)) →
      (¬Joins inside → ∀ read,
        extentFrom quote triple read (withReturns text) = .closed (read + (withReturns inside).length)) →
      Stopped quote triple text inside (quotesOf quote triple ++ more)
  | unclosed {left : List Char} {further : Nat} : Further left further →
      (∀ read, extentFrom quote triple read text = .unclosed (read + inside.length)) →
      (¬Joins inside → ∀ read, extentFrom quote triple read (withReturns text) =
        .unclosed (read + ((withReturns inside).length + further))) →
      Stopped quote triple text inside left

/-- Characters that are passed before the end. -/
theorem Stopped.step (front : List Char) {inside left : List Char}
    (passed : ∀ read, extentFrom quote triple read (front ++ text) =
      extentFrom quote triple (read + front.length) text)
    (passed' : ¬Joins front → ∀ read, extentFrom quote triple read (withReturns front ++ withReturns text) =
      extentFrom quote triple (read + (withReturns front).length) (withReturns text))
    (stopped : Stopped quote triple text inside left) :
    Stopped quote triple (front ++ text) (front ++ inside) left := by
  have first (joins : ¬Joins (front ++ inside)) : ¬Joins front :=
    fun joined => joins (joined.trans (List.prefix_append front inside).isInfix)
  have second (joins : ¬Joins (front ++ inside)) : ¬Joins inside :=
    fun joined => joins (joined.trans (List.suffix_append front inside).isInfix)
  cases stopped with
  | closed is is' =>
      refine .closed (fun read => ?_) fun joins read => ?_
      · rw [passed, is, List.length_append, Nat.add_assoc]
      · rw [withReturns_append, passed' (first joins), is' (second joins), withReturns_append,
          List.length_append, Nat.add_assoc]
  | unclosed next is is' =>
      refine .unclosed next (fun read => ?_) fun joins read => ?_
      · rw [passed, is, List.length_append, Nat.add_assoc]
      · rw [withReturns_append, passed' (first joins), is' (second joins), withReturns_append,
          List.length_append, Nat.add_assoc, Nat.add_assoc]

theorem extentFrom_carriage (quoted : isQuote quote = true) (read : Nat) (text : List Char) :
    extentFrom quote triple read ('\r' :: text) = extentFrom quote triple (read + 1) text := by
  have other := ne_of_isQuote quoted (c := '\r') (by decide)
  rw [extentFrom_cons (by decide), if_neg (by simp), if_neg (by simp [other])]

theorem exists_quotes {c : Char} (closes : (c = quote && (!triple || text.take 2 == [quote, quote])) = true) :
    ∃ more, c :: text = quotesOf quote triple ++ more := by
  rw [Bool.and_eq_true, decide_eq_true_eq] at closes
  obtain ⟨rfl, quotes⟩ := closes
  cases triple with
  | false => exact ⟨text, rfl⟩
  | true =>
      have second : text.take 2 = [c, c] := eq_of_beq quotes
      exact ⟨text.drop 2, by rw [← List.take_append_drop 2 text, second]; simp [quotesOf]⟩

theorem exists_stopped (quoted : isQuote quote = true) (triple : Bool) (text : List Char) :
    ∃ inside left, text = inside ++ left ∧ Stopped quote triple text inside left := by
  cases text with
  | nil => exact ⟨[], [], rfl, .unclosed .none (fun _ => rfl) fun _ _ => rfl⟩
  | cons c text =>
      by_cases backslash : c = '\\'
      · subst backslash
        cases text with
        | nil => exact ⟨['\\'], [], rfl, .unclosed .none (fun _ => rfl) fun _ _ => rfl⟩
        | cons d text =>
            obtain ⟨inside, left, rfl, stopped⟩ := exists_stopped quoted triple text
            refine ⟨['\\', d] ++ inside, left, rfl, .step ['\\', d] (fun _ => rfl) (fun joins _ => ?_) stopped⟩
            have other : d ≠ '\n' := by
              rintro rfl
              exact joins (.here [])
            rw [withReturns_cons (by decide), withReturns_cons other]
            rfl
      by_cases is : c = '\n'
      · subst is
        cases triple with
        | false =>
            refine ⟨[], '\n' :: text, rfl, .unclosed .carriage (fun read => ?_) fun _ read => ?_⟩
            · rw [extentFrom_cons backslash]
              rfl
            · rw [withReturns_lineFeed, extentFrom_carriage quoted, extentFrom_cons backslash]
              rfl
        | true =>
            have feed := ne_of_isQuote quoted (c := '\n') (by decide)
            obtain ⟨inside, left, rfl, stopped⟩ := exists_stopped quoted true text
            refine ⟨['\n'] ++ inside, left, rfl, .step ['\n'] (fun read => ?_) (fun _ read => ?_) stopped⟩
            · rw [List.singleton_append, extentFrom_cons backslash, if_neg (by simp), if_neg (by simp [feed])]
              rfl
            · show extentFrom quote true read ('\r' :: '\n' :: withReturns (inside ++ left)) = _
              rw [extentFrom_carriage quoted, extentFrom_cons backslash, if_neg (by simp), if_neg (by simp [feed])]
              rfl
      by_cases closes : (c = quote && (!triple || text.take 2 == [quote, quote])) = true
      · have closes' : (c = quote && (!triple || (withReturns text).take 2 == [quote, quote])) = true := by
          rwa [take_two_withReturns quoted]
        obtain ⟨more, split⟩ := exists_quotes closes
        refine ⟨[], quotesOf quote triple ++ more, split, .closed (fun read => ?_) fun _ read => ?_⟩
        · rw [extentFrom_cons backslash, if_neg (by simp [is]), if_pos closes]
          rfl
        · rw [withReturns_cons is, extentFrom_cons backslash, if_neg (by simp [is]), if_pos closes']
          rfl
      · have goesOn : ¬(c = quote && (!triple || (withReturns text).take 2 == [quote, quote])) = true := by
          rwa [take_two_withReturns quoted]
        obtain ⟨inside, left, parts, stopped⟩ := exists_stopped quoted triple text
        refine ⟨[c] ++ inside, left, congrArg (c :: ·) parts, .step [c] (fun read => ?_) (fun _ read => ?_) stopped⟩
        · rw [List.singleton_append, extentFrom_cons backslash, if_neg (by simp [is]), if_neg closes]
          rfl
        · rw [withReturns_cons is, withReturns_nil, List.singleton_append, extentFrom_cons backslash,
            if_neg (by simp [is]), if_neg goesOn]
          rfl
termination_by text.length

/-! ## Escapes -/

theorem invalidEscape?_cons {c : Char} (other : c ≠ '\\') (read : Nat) (text : List Char) :
    invalidEscape? read (c :: text) = invalidEscape? (read + 1) text := by
  cases text with
  | nil => rfl
  | cons d text => rw [invalidEscape?, if_neg other]

theorem hexadecimal_withReturns (count : Nat) (text : List Char) :
    (((withReturns text).take count).length == count && ((withReturns text).take count).all isHexDigit) =
      ((text.take count).length == count && (text.take count).all isHexDigit) := by
  induction count generalizing text with
  | zero => rfl
  | succ count ih =>
      cases text with
      | nil => rfl
      | cons c text =>
          by_cases feed : c = '\n'
          · subst feed
            have carriage : isHexDigit '\r' = false := by decide
            have feed : isHexDigit '\n' = false := by decide
            simp [carriage, feed]
          · have same := ih text
            rw [withReturns_cons feed]
            simp only [List.take_succ_cons, List.length_cons, List.all_cons]
            by_cases digit : isHexDigit c = true
            · simpa [digit] using same
            · simp [digit]

theorem isEscape_withReturns (c : Char) (text : List Char) :
    isEscape c (withReturns text) = isEscape c text := by
  unfold isEscape
  simp only [hexadecimal_withReturns]

/-- Where no line is joined with the next one, there are the same escapes. -/
theorem invalidEscape?_withReturns {text : List Char} (joins : ¬Joins text) (read read' : Nat) :
    (invalidEscape? read' (withReturns text)).isSome = (invalidEscape? read text).isSome := by
  cases text with
  | nil => rfl
  | cons c text =>
      have joins' : ¬Joins text := fun joined => joins (joined.cons c)
      by_cases backslash : c = '\\'
      · subst backslash
        cases text with
        | nil => rfl
        | cons d text =>
            have other : d ≠ '\n' := by
              rintro rfl
              exact joins (.here text)
            rw [withReturns_cons (by decide), withReturns_cons other, invalidEscape?, invalidEscape?, if_pos rfl,
              if_pos rfl, isEscape_withReturns]
            split
            · exact invalidEscape?_withReturns (fun joined => joins' (joined.cons d)) _ _
            · rfl
      by_cases feed : c = '\n'
      · subst feed
        rw [withReturns_lineFeed, invalidEscape?_cons (by decide), invalidEscape?_cons (by decide),
          invalidEscape?_cons (by decide)]
        exact invalidEscape?_withReturns joins' _ _
      · rw [withReturns_cons feed, invalidEscape?_cons backslash, invalidEscape?_cons backslash]
        exact invalidEscape?_withReturns joins' _ _
termination_by text.length

/-! ## How far literals go -/

/-- A lexeme at the beginning of a text, and one at the beginning of the text with carriage returns that is of
the same kind. The second one covers the same text as the first one does, and perhaps the carriage return
before the line feed that comes next. -/
def Widens (text : List Char) (lexeme lexeme' : Lexeme) : Prop :=
  ∃ taken left further, text = taken ++ left ∧ Further left further ∧ max 1 lexeme.length = taken.length ∧
    ((Cursor.kindOf lexeme.verdict ≠ .space → ¬Joins taken) →
      Cursor.kindOf lexeme'.verdict = Cursor.kindOf lexeme.verdict ∧
        max 1 lexeme'.length = (withReturns taken).length + further)

/-- What is read in the same way, and in one line. -/
theorem Widens.of_line {taken left : List Char} {lexeme : Lexeme} (line : '\n' ∉ taken)
    (length : max 1 lexeme.length = taken.length) : Widens (taken ++ left) lexeme lexeme :=
  ⟨taken, left, 0, rfl, .none, length, fun _ => ⟨rfl, by rw [length, withReturns_eq_self line, Nat.add_zero]⟩⟩

theorem kindOf_closed {found : Nat} (closed : extent quote triple text = .closed found) :
    Cursor.kindOf (opened letters quote triple text).verdict =
      if !letters.any isRawLetter && (invalidEscape? 0 (text.take found)).isSome then .invalid
      else if letters.any isBytesLetter then .bytes else .string := by
  unfold opened
  rw [closed]
  dsimp only
  cases letters.any isRawLetter with
  | true => rfl
  | false => cases invalidEscape? 0 (text.take found) <;> rfl

theorem kindOf_unclosed {found : Nat} (unclosed : extent quote triple text = .unclosed found) :
    Cursor.kindOf (opened letters quote triple text).verdict = .invalid := by
  rw [opened, unclosed]
  rfl

theorem widens_opened (quoted : isQuote quote = true) (line : '\n' ∉ letters) (triple : Bool)
    (text : List Char) : Widens (letters ++ quotesOf quote triple ++ text) (opened letters quote triple text)
      (opened letters quote triple (withReturns text)) := by
  have feed : '\n' ∉ quotesOf quote triple := by
    have other := ne_of_isQuote quoted (c := '\n') (by decide)
    cases triple <;> simp [quotesOf, other]
  have opening : withReturns (letters ++ quotesOf quote triple) = letters ++ quotesOf quote triple :=
    withReturns_eq_self (by simp [line, feed])
  have some : 1 ≤ (quotesOf quote triple).length := by
    rw [length_quotesOf]
    cases triple <;> simp
  obtain ⟨inside, left, rfl, stopped⟩ := exists_stopped quoted triple text
  cases stopped with
  | @closed more is is' =>
      have is : extent quote triple (inside ++ (quotesOf quote triple ++ more)) = .closed inside.length :=
        (is 0).trans (by rw [Nat.zero_add])
      refine ⟨letters ++ quotesOf quote triple ++ inside ++ quotesOf quote triple, more, 0, by simp, .none, ?_,
        fun joins => ?_⟩
      · rw [length_of_closed is, ← length_quotesOf quote]
        simp only [List.length_append]
        omega
      have joins : ¬Joins inside := by
        refine fun joined => joins ?_ (joined.trans (List.infix_append _ _ _))
        rw [kindOf_closed is]
        split
        · decide
        · split <;> decide
      have is' : extent quote triple (withReturns (inside ++ (quotesOf quote triple ++ more))) =
          .closed (withReturns inside).length := (is' joins 0).trans (by rw [Nat.zero_add])
      constructor
      · have contents : (withReturns (inside ++ (quotesOf quote triple ++ more))).take
            (withReturns inside).length = withReturns inside := by
          rw [withReturns_append, List.take_left]
        rw [kindOf_closed is, kindOf_closed is', List.take_left, contents, invalidEscape?_withReturns joins 0 0]
      · rw [length_of_closed is', ← length_quotesOf quote, withReturns_append, withReturns_append, opening,
          withReturns_eq_self feed]
        simp only [List.length_append]
        omega
  | @unclosed left further next is is' =>
      have is : extent quote triple (inside ++ left) = .unclosed inside.length :=
        (is 0).trans (by rw [Nat.zero_add])
      refine ⟨letters ++ quotesOf quote triple ++ inside, left, further, by simp, next, ?_, fun joins => ?_⟩
      · rw [length_of_unclosed is, ← length_quotesOf quote]
        simp only [List.length_append]
        omega
      have joins : ¬Joins inside := fun joined => joins (by rw [kindOf_unclosed is]; decide)
        (joined.trans (List.suffix_append _ _).isInfix)
      have is' : extent quote triple (withReturns (inside ++ left)) =
          .unclosed ((withReturns inside).length + further) := (is' joins 0).trans (by rw [Nat.zero_add])
      constructor
      · rw [kindOf_unclosed is, kindOf_unclosed is']
      · rw [length_of_unclosed is', ← length_quotesOf quote, withReturns_append, opening]
        simp only [List.length_append]
        omega

theorem widens_quoted (quoted : isQuote quote = true) (line : '\n' ∉ letters) (text : List Char) :
    Widens (letters ++ quote :: text) (Lexeme.quoted letters quote text)
      (Lexeme.quoted letters quote (withReturns text)) := by
  have rest : (withReturns text).drop ((if text.take 2 == [quote, quote] then 3 else 1) - 1) =
      withReturns (text.drop ((if text.take 2 == [quote, quote] then 3 else 1) - 1)) := by
    split
    · rename_i triple
      have other := ne_of_isQuote quoted (c := '\n') (by decide)
      rw [← List.take_append_drop 2 text, eq_of_beq triple, withReturns_append,
        withReturns_eq_self (by simp [other])]
      rfl
    · rfl
  have widens := widens_opened quoted line (text.take 2 == [quote, quote])
    (text.drop ((if text.take 2 == [quote, quote] then 3 else 1) - 1))
  rw [List.append_assoc, ← quotes_append] at widens
  rwa [quoted_eq, quoted_eq, take_two_withReturns quoted, rest]

end Lexeme

end StarlarkSyntax
