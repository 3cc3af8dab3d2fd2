import StarlarkSyntax.Proofs.Lexing.Room
/-!
# Reading is local

What is read at the beginning of a text does not depend on what comes after the text, if the text goes on
behind the token (`lexeme_inside`), or if a break comes there and the token is neither white space nor a
comment nor invalid (`lexeme_append_break`). Only a backslash looks further ahead than the next character:
with a carriage return and a line feed it is white space.

A string that is not closed ends at the end of its line, which has to be in the text. A closed one looks no
further than its closing quotes.
-/

set_option autoImplicit false

namespace StarlarkSyntax

namespace Lexeme

variable {text more next : List Char} {c : Char}

/-! ## Strings -/

theorem ne_of_isQuote {quote : Char} (quoted : isQuote quote = true) (among : c ∈ breakChars) :
    c ≠ quote := by
  rintro rfl
  have apart : ∀ c ∈ breakChars, isQuote c = false := forall_mem_of_all (by decide)
  rw [apart c among] at quoted
  cases quoted

variable {quote : Char} {letters : List Char} {triple : Bool} {read found : Nat}

/-- The search for the closing quotes, character by character. -/
theorem extentFrom_cons (backslash : c ≠ '\\') (text : List Char) : extentFrom quote triple read (c :: text) =
    if c = '\n' && !triple then .unclosed read
    else if c = quote && (!triple || text.take 2 == [quote, quote]) then .closed read
    else extentFrom quote triple (read + 1) text := by
  rcases text with _ | ⟨d, _ | ⟨e, text⟩⟩ <;> simp [extentFrom, backslash]

theorem le_unclosed (unclosed : extentFrom quote triple read text = .unclosed found) :
    read ≤ found ∧ (triple = true → found = read + text.length) := by
  fun_induction extentFrom quote triple read text with
  | case1 | case2 | case5 =>
      cases unclosed
      exact ⟨by omega, fun _ => rfl⟩
  | case3 read c no is =>
      cases unclosed
      exact ⟨Nat.le_refl _, fun triple => by simp [triple] at is⟩
  | case6 read d text ih =>
      obtain ⟨le, all⟩ := ih unclosed
      exact ⟨by omega, fun triple => by simp only [all triple, List.length_cons]; omega⟩
  | case7 read c d text no is =>
      cases unclosed
      exact ⟨Nat.le_refl _, fun triple => by simp [triple] at is⟩
  | case9 read c d text no no' no'' ih =>
      obtain ⟨le, all⟩ := ih unclosed
      exact ⟨by omega, fun triple => by simp only [all triple, List.length_cons]; omega⟩
  | _ => cases unclosed

/-- A literal that is given up at the end of its line. -/
theorem unclosed_local {read : Nat} {text : List Char}
    (unclosed : extentFrom quote false read (text ++ more) = .unclosed found)
    (inside : found < read + text.length) (next : List Char) :
    extentFrom quote false read (text ++ next) = .unclosed found := by
  cases text with
  | nil => exact absurd (le_unclosed unclosed).1 (Nat.not_le_of_lt inside)
  | cons c text =>
      rw [List.length_cons] at inside
      rw [List.cons_append] at unclosed ⊢
      by_cases backslash : c = '\\'
      · subst backslash
        cases text with
        | nil =>
            -- The backslash is passed, and so is the end of the text.
            cases more with
            | nil =>
                cases unclosed
                exact absurd inside (Nat.lt_irrefl _)
            | cons d more =>
                have passed : extentFrom quote false (read + 2) more = .unclosed found := unclosed
                have le := (le_unclosed passed).1
                rw [List.length_nil] at inside
                omega
        | cons d text =>
            rw [List.length_cons] at inside
            have passed : extentFrom quote false (read + 2) (text ++ more) = .unclosed found := unclosed
            exact unclosed_local passed (by omega) next
      · rw [extentFrom_cons backslash] at unclosed ⊢
        simp only [Bool.not_false, Bool.true_or, Bool.and_true] at unclosed ⊢
        split at unclosed
        · rw [if_pos ‹_›, unclosed]
        split at unclosed
        · cases unclosed
        · rw [if_neg ‹_›, if_neg ‹_›]
          exact unclosed_local unclosed (by omega) next
termination_by text.length

/-- The literal whose opening quotes have been recognised; the text is what follows them. -/
def opened (letters : List Char) (quote : Char) (triple : Bool) (text : List Char) : Lexeme :=
  let quotes := if triple then 3 else 1
  let start := letters.length + quotes
  match extent quote triple text with
  | .unclosed length => ofFault (start + length) .unclosedString 0
  | .closed length =>
    let total := start + length + quotes
    let kind := if letters.any isBytesLetter then Kind.bytes else Kind.string
    if letters.any isRawLetter then ofKind total kind
    else match invalidEscape? 0 (text.take length) with
      | some (position, c) => ofFault total (.invalidEscape c) (start + position)
      | none => ofKind total kind

theorem quoted_eq (letters : List Char) (quote : Char) (text : List Char) :
    quoted letters quote text = opened letters quote (text.take 2 == [quote, quote])
      (text.drop ((if text.take 2 == [quote, quote] then 3 else 1) - 1)) := rfl

theorem length_of_closed (closed : extent quote triple text = .closed found) :
    (opened letters quote triple text).length =
      letters.length + (if triple then 3 else 1) + (found + if triple then 3 else 1) := by
  unfold opened
  rw [closed]
  dsimp only
  rw [← Nat.add_assoc]
  split
  · rfl
  · split <;> rfl

theorem length_of_unclosed (unclosed : extent quote triple text = .unclosed found) :
    (opened letters quote triple text).length = letters.length + (if triple then 3 else 1) + found := by
  unfold opened
  rw [unclosed]
  rfl

theorem le_opened (letters : List Char) (quote : Char) (triple : Bool) (text : List Char) :
    letters.length + (if triple then 3 else 1) ≤ (opened letters quote triple text).length := by
  cases is : extent quote triple text with
  | closed =>
      rw [length_of_closed is]
      exact Nat.le_add_right _ _
  | unclosed =>
      rw [length_of_unclosed is]
      exact Nat.le_add_right _ _

theorem letters_lt_quoted (letters : List Char) (quote : Char) (text : List Char) :
    letters.length + 1 ≤ (quoted letters quote text).length := by
  rw [quoted_eq]
  refine Nat.le_trans (Nat.add_le_add_left ?_ _) (le_opened _ _ _ _)
  split <;> decide

theorem opened_local (quoted : isQuote quote = true)
    (length : (opened letters quote triple (text ++ more)).length =
      letters.length + (if triple then 3 else 1) + read)
    (fits : read ≤ text.length)
    (closed : (∃ kind, (opened letters quote triple (text ++ more)).verdict = .token kind) ∨
      read < text.length) (next : List Char) :
    opened letters quote triple (text ++ next) = opened letters quote triple (text ++ more) := by
  cases is : extent quote triple (text ++ more) with
  | closed found =>
      rw [length_of_closed is, ← length_quotesOf quote] at length
      obtain rfl := Nat.add_left_cancel length
      obtain ⟨contents, same, -, closes⟩ := closes_of_extentFrom quoted is
      rw [Nat.zero_add] at same
      subst same
      rw [List.take_append_of_le_length fits] at closes
      have again := extentFrom_closes quoted closes 0
        (text.drop (found + (quotesOf quote triple).length) ++ next)
      rw [← List.append_assoc, List.take_append_drop, List.length_take_of_le fits, Nat.add_sub_cancel,
        Nat.zero_add] at again
      have inside : found ≤ text.length := Nat.le_trans (Nat.le_add_right _ _) fits
      unfold opened
      rw [is, extent, again]
      dsimp only
      rw [List.take_append_of_le_length inside, List.take_append_of_le_length inside]
  | unclosed found =>
      rw [length_of_unclosed is] at length
      obtain rfl := Nat.add_left_cancel length
      have inside : found < text.length := by
        refine closed.resolve_left fun ⟨kind, token⟩ => ?_
        rw [opened, is] at token
        cases token
      have single : triple = false := by
        refine Bool.eq_false_iff.2 fun triple => ?_
        have all := (le_unclosed is).2 triple
        rw [List.length_append] at all
        omega
      subst single
      have again := unclosed_local is (by rwa [Nat.zero_add]) next
      unfold opened
      rw [is, extent, again]

/-- After fewer than two characters a break keeps three quotes apart. -/
theorem not_triple_of_break (quoted : isQuote quote = true) (short : text.length ≤ 1) (ends : IsBreak next) :
    ((text ++ next).take 2 == [quote, quote]) = false := by
  have apart (c : Char) (is : c ∈ next.head?) : c ≠ quote := ne_of_isQuote quoted (ends c is)
  match text, next with
  | [], [] => rfl
  | [_], [] => simp
  | [], [_] => simp
  | [], c :: d :: next | [_], c :: next => simp [apart c rfl]

/-- Whether there are three quotes. -/
theorem triple_local (quoted : isQuote quote = true)
    (length : (Lexeme.quoted letters quote (text ++ more)).length = letters.length + 1 + read)
    (room : Room text next read) :
    ((text ++ next).take 2 == [quote, quote]) = ((text ++ more).take 2 == [quote, quote]) := by
  have fits := room.le
  have le : letters.length + (if (text ++ more).take 2 == [quote, quote] then 3 else 1) ≤
      letters.length + 1 + read := by
    rw [← length, quoted_eq]
    exact le_opened _ _ _ _
  -- Three quotes are longer than what has been read.
  have single (short : text.length ≤ 1) : ((text ++ more).take 2 == [quote, quote]) = false := by
    refine Bool.eq_false_iff.2 fun triple => ?_
    rw [if_pos triple] at le
    omega
  match text with
  | [] => rw [single (Nat.zero_le _), not_triple_of_break quoted (Nat.zero_le _) room.break_of_nil]
  | [d] =>
      have single := single (Nat.le_refl _)
      by_cases second : d = quote
      · subst second
        have closed : extent d false ([d] ++ more) = .closed 0 := by
          have apart : d ≠ '\\' ∧ d ≠ '\n' := by constructor <;> rintro rfl <;> cases quoted
          rw [extent, List.singleton_append, extentFrom_cons apart.1]
          simp [apart.2]
        rw [quoted_eq, single] at length
        have total : (opened letters d false ([d] ++ more)).length = letters.length + 1 + 1 :=
          length_of_closed closed
        obtain rfl : 1 = read := Nat.add_left_cancel (total.symm.trans length)
        rw [single, not_triple_of_break quoted (Nat.le_refl _) room.cons.break_of_nil]
      · have first : (d == quote) = false := beq_eq_false_iff_ne.2 second
        cases next <;> cases more <;> simp [first]
  | _ :: _ :: _ => rfl

theorem quoted_local (quoted : isQuote quote = true)
    (length : (Lexeme.quoted letters quote (text ++ more)).length = letters.length + 1 + read)
    (room : Room text next read)
    (closed : (∃ kind, (Lexeme.quoted letters quote (text ++ more)).verdict = .token kind) ∨
      read < text.length) :
    Lexeme.quoted letters quote (text ++ next) = Lexeme.quoted letters quote (text ++ more) := by
  have same := triple_local quoted length room
  rw [quoted_eq] at length closed
  rw [quoted_eq, quoted_eq, same]
  generalize ((text ++ more).take 2 == [quote, quote]) = triple at *
  have opening := le_opened letters quote triple
    ((text ++ more).drop ((if triple then 3 else 1) - 1))
  rw [length] at opening
  have some : 1 ≤ (if triple then 3 else 1) := by cases triple <;> decide
  generalize quotes : (if triple then 3 else 1) = count at *
  obtain ⟨count, rfl⟩ := Nat.exists_eq_add_of_le' some
  obtain ⟨left, rfl⟩ := Nat.exists_eq_add_of_le (show count ≤ read by omega)
  have fits : count + left ≤ text.length := room.le
  have inside : count ≤ text.length := Nat.le_trans (Nat.le_add_right _ _) fits
  rw [Nat.add_sub_cancel, List.drop_append_of_le_length inside] at *
  rw [List.drop_append_of_le_length inside]
  have length' : (opened letters quote triple (text.drop count ++ more)).length =
      letters.length + (if triple then 3 else 1) + left := by
    rw [length, quotes]
    omega
  refine opened_local quoted length' ?_ (closed.imp_right fun inside => ?_) next
  · rw [List.length_drop]
    omega
  · rw [List.length_drop]
    omega

theorem continue_of_letters {raw bytes : Bool} (is : Language.Letters raw bytes letters) :
    ∀ c ∈ letters, Unicode.isIdentifierContinue c = true := by
  have raw {c : Char} (is : c = 'r' ∨ c = 'R') : Unicode.isIdentifierContinue c = true := by
    rcases is with rfl | rfl <;> rfl
  have bytes {c : Char} (is : c = 'b' ∨ c = 'B') : Unicode.isIdentifierContinue c = true := by
    rcases is with rfl | rfl <;> rfl
  cases is with
  | none => exact nofun
  | raw r => simp [raw r]
  | bytes b => simp [bytes b]
  | rawBytes r b | bytesRaw b r => simp [raw r, bytes b]

/-- The letters of a literal are those of a word if no quote follows. -/
theorem stringLetters?_local (room : Room text next read)
    (some : ∀ letters, stringLetters? (text ++ more) = some letters → letters.length < read)
    (none : stringLetters? (text ++ more) = none →
      run Unicode.isIdentifierContinue (text ++ more) ≤ read) :
    stringLetters? (text ++ next) = stringLetters? (text ++ more) := by
  -- The quote stands in the text in both, or in neither.
  have inside {more : List Char} {letters : List Char} (found : stringLetters? (text ++ more) = .some letters)
      (short : letters.length < text.length) (next : List Char) :
      stringLetters? (text ++ next) = .some letters := by
    obtain ⟨⟨raw, bytes, is⟩, quote, rest, quoted, split⟩ := stringLetters?_sound found
    have isPrefix : letters ++ [quote] <+: text ++ more := ⟨rest, by rw [split, List.append_assoc]; rfl⟩
    obtain ⟨before, rfl⟩ := List.prefix_of_prefix_length_le isPrefix (List.prefix_append text more)
      (by rwa [List.length_append, List.length_singleton])
    rw [List.append_assoc, List.append_assoc]
    exact stringLetters?_complete is quoted _
  cases found : stringLetters? (text ++ more) with
  | some letters => exact inside found (Nat.lt_of_lt_of_le (some letters found) room.le) next
  | none =>
      cases found' : stringLetters? (text ++ next) with
      | none => rfl
      | some letters =>
          by_cases short : letters.length < text.length
          · rw [inside found' short more] at found
            cases found
          · obtain ⟨⟨raw, bytes, is⟩, quote, rest, quoted, split⟩ := stringLetters?_sound found'
            obtain ⟨tail, rfl⟩ := List.prefix_of_prefix_length_le ⟨next, split⟩
              (List.prefix_append letters (quote :: rest)) (Nat.le_of_not_lt short)
            have goesOn := List.forall_mem_append.1 (continue_of_letters is)
            have counted := run_append goesOn.1 more
            have ends : IsBreak next := by
              have := none found
              rcases room with inside | ⟨-, ends⟩
              · omega
              · exact ends
            rw [List.append_assoc] at split
            have same := List.append_cancel_left split
            cases tail with
            | nil => exact absurd rfl (ne_of_isQuote quoted (ends quote (by rw [same]; rfl)))
            | cons c tail =>
                have stops := stops_identifier c (ends c (by rw [same]; rfl))
                rw [goesOn.2 c List.mem_cons_self] at stops
                cases stops

theorem stringLiteral?_of_letters {rest : List Char} (found : stringLetters? text = some letters)
    (split : text = letters ++ quote :: rest) :
    stringLiteral? text = some (Lexeme.quoted letters quote rest) := by
  rw [stringLiteral?, found]
  dsimp only
  rw [split, List.drop_left]

theorem stringLiteral?_local
    (read : ∀ literal, stringLiteral? (text ++ more) = some literal → Room text next literal.length ∧
      ((∃ kind, literal.verdict = .token kind) ∨ literal.length < text.length))
    (word : stringLiteral? (text ++ more) = none →
      Room text next (run Unicode.isIdentifierContinue (text ++ more))) :
    stringLiteral? (text ++ next) = stringLiteral? (text ++ more) := by
  cases found : stringLetters? (text ++ more) with
  | none =>
      have nothing : stringLiteral? (text ++ more) = none := by rw [stringLiteral?, found]
      have same := stringLetters?_local (word nothing) (by simp [found]) fun _ => Nat.le_refl _
      rw [nothing, stringLiteral?, same, found]
  | some letters =>
      obtain ⟨⟨raw, bytes, is⟩, quote, rest, quoted, split⟩ := stringLetters?_sound found
      have literal := stringLiteral?_of_letters found split
      obtain ⟨room, closed⟩ := read _ literal
      obtain ⟨count, length⟩ := Nat.exists_eq_add_of_le (letters_lt_quoted letters quote rest)
      rw [length] at room closed
      have isPrefix : letters ++ [quote] <+: text ++ more :=
        ⟨rest, by rw [split, List.append_assoc]; rfl⟩
      have opening : (letters ++ [quote]).length = letters.length + 1 := by simp
      obtain ⟨text, rfl⟩ := List.prefix_of_prefix_length_le isPrefix (List.prefix_append text more)
        (opening ▸ Nat.le_trans (Nat.le_add_right _ _) room.le)
      have whole (more : List Char) :
          letters ++ [quote] ++ text ++ more = letters ++ quote :: (text ++ more) := by simp
      obtain rfl := (List.cons.inj (List.append_cancel_left ((whole more).symm.trans split))).2
      have room : Room ((letters ++ [quote] ++ text).drop (letters.length + 1)) next count := room.drop
      rw [← opening, List.drop_left] at room
      rw [literal, stringLiteral?_of_letters (whole next ▸ stringLetters?_complete is quoted _) (whole next)]
      refine congrArg some (quoted_local quoted length room (closed.imp_right fun inside => ?_))
      rw [List.length_append, opening] at inside
      omega

theorem unclosed_le (unclosed : extentFrom quote triple read text = .unclosed found) :
    found ≤ read + text.length := by
  fun_induction extentFrom quote triple read text with
  | case1 | case3 | case7 =>
      cases unclosed
      exact Nat.le_add_right _ _
  | case2 | case5 =>
      cases unclosed
      exact Nat.le_refl _
  | case6 read d text ih =>
      have := ih unclosed
      simp only [List.length_cons]
      omega
  | case9 read c d text no no' no'' ih =>
      have := ih unclosed
      simp only [List.length_cons] at this ⊢
      omega
  | _ => cases unclosed

theorem length_opened_le (quoted : isQuote quote = true) (letters : List Char) (triple : Bool)
    (text : List Char) : (opened letters quote triple text).length ≤
      letters.length + (if triple then 3 else 1) + text.length := by
  cases is : extent quote triple text with
  | closed found =>
      obtain ⟨count, rfl, fits, -⟩ := closes_of_extentFrom quoted is
      rw [length_quotesOf] at fits
      rw [length_of_closed is, Nat.zero_add]
      exact Nat.add_le_add_left fits _
  | unclosed found =>
      have fits := unclosed_le is
      rw [Nat.zero_add] at fits
      rw [length_of_unclosed is]
      exact Nat.add_le_add_left fits _

theorem length_quoted_le (quoted : isQuote quote = true) (letters text : List Char) :
    (Lexeme.quoted letters quote text).length ≤ letters.length + 1 + text.length := by
  have opening := congrArg List.length (quotes_append quote text)
  rw [List.length_append, length_quotesOf, List.length_cons] at opening
  refine Nat.le_trans (quoted_eq letters quote text ▸ length_opened_le quoted _ _ _) ?_
  omega

theorem length_stringLiteral?_le {literal : Lexeme} (found : stringLiteral? text = some literal) :
    literal.length ≤ text.length := by
  cases letters : stringLetters? text with
  | none =>
      rw [stringLiteral?, letters] at found
      cases found
  | some letters' =>
      obtain ⟨-, quote, rest, quoted, split⟩ := stringLetters?_sound letters
      rw [stringLiteral?_of_letters letters split] at found
      cases found
      rw [split, List.length_append, List.length_cons]
      have := length_quoted_le quoted letters' rest
      omega

/-! ## White space -/

/-- A run that ends before the end of a text is that of the text alone. -/
theorem run_inside {test : Char → Bool} (inside : run test (text ++ more) < text.length)
    (next : List Char) : run test (text ++ next) = run test (text ++ more) := by
  have stopped : (text.takeWhile test).length ≠ text.length := by
    intro all
    have whole := (List.takeWhile_prefix test).eq_of_length all
    rw [run, List.takeWhile_append, if_pos all, List.length_append] at inside
    omega
  rw [run, run, List.takeWhile_append, List.takeWhile_append, if_neg stopped, if_neg stopped]

theorem continuation_inside (inside : (continuation (text ++ more)).length ≤ text.length)
    (joined : text = ['\r'] → next.head? ≠ some '\n') :
    continuation (text ++ next) = continuation (text ++ more) := by
  match text with
  | [] =>
      have positive : 1 ≤ (continuation more).length := by
        unfold Lexeme.continuation
        split <;> exact Nat.le_add_left _ _
      exact absurd (Nat.le_trans positive inside) (Nat.not_succ_le_zero 0)
  | [c] =>
      by_cases feed : c = '\n'
      · subst feed
        rfl
      by_cases carriage : c = '\r'
      · subst carriage
        have alone (rest : List Char) (apart : rest.head? ≠ some '\n') :
            continuation ('\r' :: rest) = ofFault 1 (.notStartOfToken '\\') 0 := by
          cases rest with
          | nil => rfl
          | cons d rest => simp_all [Lexeme.continuation]
        rw [List.singleton_append, List.singleton_append, alone next (joined rfl), alone more]
        rintro feed
        obtain ⟨rest, rfl⟩ := List.head?_eq_some_iff.1 feed
        exact absurd inside (show ¬3 ≤ 1 by decide)
      · simp [Lexeme.continuation, feed, carriage]
  | c :: d :: text =>
      by_cases feed : c = '\n'
      · subst feed
        rfl
      by_cases carriage : c = '\r' ∧ d = '\n'
      · obtain ⟨rfl, rfl⟩ := carriage
        rfl
      · have alone (rest : List Char) :
            continuation (c :: d :: rest) = ofFault 1 (.notStartOfToken '\\') 0 := by
          unfold Lexeme.continuation
          split <;> simp_all
        rw [List.cons_append, List.cons_append, List.cons_append, List.cons_append, alone, alone]

end Lexeme

open Lexeme

/-! ## All lexemes -/

/-- A literal, a number, a word or a symbol. -/
theorem plain_local {c : Char} {text more next : List Char} (plain : Plain c)
    (room : Room (c :: text) next (lexeme c (text ++ more)).length)
    (closed : ∀ literal, stringLiteral? (c :: (text ++ more)) = some literal →
      (∃ kind, literal.verdict = .token kind) ∨ literal.length < (c :: text).length) :
    lexeme c (text ++ next) = lexeme c (text ++ more) := by
  by_cases digit : c ∈ Language.decimalDigits
  · rw [lexeme_number digit] at room ⊢
    rw [lexeme_number digit]
    exact number_local room
  have notDigit : ¬c.isDigit = true := (isDigit_iff c).not.2 digit
  rw [lexeme_plain plain, if_neg notDigit] at room ⊢
  rw [lexeme_plain plain, if_neg notDigit]
  cases found : stringLiteral? (c :: (text ++ more)) with
  | some literal =>
      rw [found] at room
      have same : stringLiteral? (c :: text ++ next) = stringLiteral? (c :: text ++ more) := by
        refine stringLiteral?_local (fun literal' is => ?_) fun none => ?_
        · cases found.symm.trans is
          exact ⟨room, closed _ found⟩
        · cases found.symm.trans none
      rw [← List.cons_append, same, List.cons_append, found]
  | none =>
      rw [found] at room
      dsimp only at room ⊢
      by_cases start : Unicode.isIdentifierStart c = true
      · rw [if_pos start] at room ⊢
        have same : stringLiteral? (c :: text ++ next) = stringLiteral? (c :: text ++ more) := by
          refine stringLiteral?_local (fun literal is => ?_) fun _ => ?_
          · cases found.symm.trans is
          · rwa [← length_word]
        rw [← List.cons_append, same, List.cons_append, found, if_pos start]
        exact word_local room
      · rw [if_neg start] at room ⊢
        have apart : isQuote c = false ∧ isRawLetter c = false ∧ isBytesLetter c = false := by
          refine ⟨Bool.eq_false_iff.2 fun quoted => ?_, Bool.eq_false_iff.2 fun raw => start ?_,
            Bool.eq_false_iff.2 fun bytes => start ?_⟩
          · have letters := stringLetters?_complete .none quoted (text ++ more)
            cases found.symm.trans (stringLiteral?_of_letters letters rfl)
          · rcases isRawLetter_iff.1 raw with rfl | rfl <;> rfl
          · rcases isBytesLetter_iff.1 bytes with rfl | rfl <;> rfl
        rw [stringLiteral?_none apart.1 apart.2.1 apart.2.2, if_neg start]
        exact symbol_local room

/-- What is read at the beginning of a text does not depend on what comes after the text, if the text goes on
behind the token, or if a break comes there and the token is neither white space nor a comment. Only a
backslash looks further ahead. -/
theorem lexeme_local {c : Char} {text more next : List Char}
    (read : (lexeme c (text ++ more)).length < (c :: text).length ∨
      (lexeme c (text ++ more)).length = (c :: text).length ∧ IsBreak next ∧
        ∃ kind, (lexeme c (text ++ more)).verdict = .token kind ∧ kind ≠ .space ∧ kind ≠ .comment)
    (joined : c = '\\' → text = ['\r'] → next.head? ≠ some '\n') :
    lexeme c (text ++ next) = lexeme c (text ++ more) := by
  have room : Room (c :: text) next (lexeme c (text ++ more)).length :=
    read.imp_right fun ⟨length, ends, _⟩ => ⟨length, ends⟩
  by_cases plain : Plain c
  · refine plain_local plain room fun literal found => ?_
    have whole : lexeme c (text ++ more) = literal := by rw [lexeme_plain plain, found]
    exact whole ▸ read.symm.imp_left fun ⟨_, _, kind, is, _⟩ => ⟨kind, is⟩
  -- White space, comments and what is wrong end before the text.
  have inside (open' : ∀ kind, (lexeme c (text ++ more)).verdict = .token kind →
      kind = .space ∨ kind = .comment) : (lexeme c (text ++ more)).length < (c :: text).length := by
    refine read.resolve_right fun ⟨_, _, kind, is, noSpace, noComment⟩ => ?_
    exact (open' kind is).elim noSpace noComment
  unfold lexeme at inside room ⊢
  split
  · rename_i blank
    rw [if_pos blank] at inside
    have before : run isBlankInLine (c :: text ++ more) < (c :: text).length :=
      inside fun _ is => .inl (Verdict.token.inj is).symm
    exact congrArg (ofKind · .space) (run_inside before next)
  rename_i notBlank
  rw [if_neg notBlank] at inside room
  split
  · rfl
  rename_i mark
  rw [mark] at inside room
  dsimp only at inside room
  split
  · rename_i backslash
    rw [if_pos backslash] at inside
    refine continuation_inside (Nat.le_of_lt_succ (inside fun kind is => .inl ?_)) (joined backslash)
    unfold Lexeme.continuation at is
    split at is <;> cases is <;> rfl
  rename_i notBackslash
  rw [if_neg notBackslash] at inside room
  split
  · rename_i hash
    rw [if_pos hash] at inside
    have before : run (· ≠ '\n') (c :: text ++ more) < (c :: text).length :=
      inside fun _ is => .inr (Verdict.token.inj is).symm
    exact congrArg (ofKind · .comment) (run_inside before next)
  rename_i notHash
  rw [if_neg notHash] at room
  split
  · rename_i dot
    subst dot
    exact point_local room
  · rename_i notPoint
    exact absurd ⟨Bool.eq_false_iff.2 notBlank, mark, notBackslash, notHash, notPoint⟩ plain

/-- A token that ends before the text does. -/
theorem lexeme_inside {c : Char} {text more next : List Char}
    (inside : (lexeme c (text ++ more)).length ≤ text.length)
    (joined : c = '\\' → text = ['\r'] → next.head? ≠ some '\n') :
    lexeme c (text ++ next) = lexeme c (text ++ more) :=
  lexeme_local (.inl (Nat.lt_succ_of_le inside)) joined

/-- A token that ends where the text does. -/
theorem lexeme_append_break {c : Char} {text more next : List Char} {kind : Kind}
    (is : lexeme c (text ++ more) = .ofKind (text.length + 1) kind)
    (solid : kind ≠ .space ∧ kind ≠ .comment) (ends : IsBreak next) :
    lexeme c (text ++ next) = .ofKind (text.length + 1) kind := by
  refine (lexeme_local (.inr ⟨?_, ends, kind, ?_, solid⟩) fun backslash _ => ?_).trans is
  · rw [is]
    rfl
  · rw [is]
    rfl
  · -- A backslash is white space or invalid.
    subst backslash
    have token : (Lexeme.continuation (text ++ more)).verdict = .token kind := congrArg Lexeme.verdict is
    unfold Lexeme.continuation at token
    split at token <;> cases token
    · exact absurd rfl solid.1
    · exact absurd rfl solid.1

/-- A token is no longer than the text. -/
theorem length_lexeme_le (c : Char) (text : List Char) : (lexeme c text).length ≤ text.length + 1 := by
  have one : 1 ≤ text.length + 1 := Nat.le_add_left _ _
  unfold lexeme
  split
  · exact run_le_length _ _
  split
  · exact one
  split
  · unfold Lexeme.continuation
    split <;> exact Nat.le_add_left _ _
  split
  · exact run_le_length _ _
  split
  · unfold Lexeme.point
    split
    · exact length_number_le _
    · exact one
  split
  · exact length_stringLiteral?_le ‹_›
  split
  · exact length_number_le _
  split
  · exact length_word _ ▸ run_le_length _ _
  · exact length_symbol_le c text

/-- What is no literal and neither white space nor a comment ends before a break, also if it is invalid. -/
theorem lexeme_break {c : Char} {text next : List Char} (notBlank : isBlankInLine c = false)
    (backslash : c ≠ '\\') (hash : c ≠ '#') (noLiteral : stringLiteral? (c :: text) = none)
    (ends : IsBreak next) : lexeme c (text ++ next) = lexeme c text := by
  have room {read : Nat} (fits : read ≤ (c :: text).length) : Room (c :: text) next read :=
    (Nat.lt_or_eq_of_le fits).imp_right fun same => ⟨same, ends⟩
  have whole := List.append_nil text
  have fits : (lexeme c (text ++ [])).length ≤ (c :: text).length := whole.symm ▸ length_lexeme_le c text
  by_cases plain : Plain c
  · rw [← whole] at noLiteral
    have same := plain_local plain (room fits) fun _ found => by
      cases noLiteral.symm.trans found
    rwa [whole] at same
  cases mark : punctuation? c with
  | some kind => simp only [lexeme, notBlank, mark, Bool.false_eq_true, if_false]
  | none =>
      by_cases dot : c = '.'
      · subst dot
        have same := point_local (room fits)
        rwa [whole] at same
      · exact absurd ⟨notBlank, mark, backslash, hash, dot⟩ plain

end StarlarkSyntax
