import StarlarkSyntax.Proofs.Lexing.Munch
/-!
# Numbers, words and symbols with anything after them

The rules of the lexical grammar look at the character after a token, and all of them stop at white space
and before a comment. So what comes after a text makes no difference to what is read at its beginning as
long as there is room (`Room`): either more of the text is left behind what has been read, or a break comes
there. A rule that reads one part after the other leaves room for the next part, if there is any at its end.
-/

set_option autoImplicit false

namespace StarlarkSyntax

/-- White space, and the beginning of a comment. -/
def breakChars : List Char := [' ', '\t', '\x0c', '\r', '\n', '#']

/-- The text ends, or white space or a comment comes. -/
def IsBreak (more : List Char) : Prop := ∀ c ∈ more.head?, c ∈ breakChars

theorem IsBreak.nil : IsBreak [] := nofun

theorem IsBreak.cons {c : Char} (among : c ∈ breakChars) (more : List Char) : IsBreak (c :: more) := by
  rintro _ ⟨⟩
  exact among

theorem IsBreak.space (more : List Char) : IsBreak (' ' :: more) := .cons (by decide) more

theorem IsBreak.lineFeed (more : List Char) : IsBreak ('\n' :: more) := .cons (by decide) more

namespace Lexeme

variable {text more next : List Char} {c : Char}

/-- No break passes the test. -/
def Stops (test : Char → Bool) : Prop := ∀ c ∈ breakChars, test c = false

theorem Stops.head {test : Char → Bool} (stops : Stops test) (ends : IsBreak (c :: more)) :
    test c = false := stops c (ends c rfl)

/-- So many characters of a text have been read, and either more of the text is left, or what follows it
is a break. -/
def Room (text next : List Char) (read : Nat) : Prop :=
  read < text.length ∨ read = text.length ∧ IsBreak next

namespace Room

variable {m n : Nat}

theorem le (room : Room text next n) : n ≤ text.length := by
  rcases room with inside | ⟨whole, -⟩
  · exact Nat.le_of_lt inside
  · exact Nat.le_of_eq whole

theorem mono (room : Room text next n) (le : m ≤ n) : Room text next m := by
  rcases room with inside | ⟨whole, ends⟩
  · exact .inl (Nat.lt_of_le_of_lt le inside)
  · subst whole
    exact (Nat.lt_or_eq_of_le le).imp_right fun same => ⟨same, ends⟩

/-- What has been read can be left out. -/
theorem drop (room : Room text next (m + n)) : Room (text.drop m) next n := by
  have fits := room.le
  rw [Room, List.length_drop]
  rcases room with inside | ⟨whole, ends⟩
  · exact .inl (by omega)
  · exact .inr ⟨by omega, ends⟩

theorem cons (room : Room (c :: text) next (n + 1)) : Room text next n := by
  rw [Nat.add_comm] at room
  exact room.drop

theorem break_of_nil (room : Room [] next n) : IsBreak next := by
  rcases room with inside | ⟨-, ends⟩
  · exact absurd inside (Nat.not_lt_zero _)
  · exact ends

end Room

/-! ## Runs of characters -/

theorem run_local {test : Char → Bool} (stops : Stops test)
    (room : Room text next (run test (text ++ more))) :
    run test (text ++ next) = run test (text ++ more) := by
  induction text with
  | nil =>
      have ends := room.break_of_nil
      have none : run test more = 0 := Nat.le_zero.1 room.le
      rw [List.nil_append, List.nil_append, none]
      cases next with
      | nil => rfl
      | cons c next => rw [run_cons, if_neg (by simp [stops.head ends])]
  | cons c text ih =>
      rw [List.cons_append, List.cons_append, run_cons] at *
      rw [run_cons]
      split at room
      · rw [if_pos ‹_›, if_pos ‹_›, ih room.cons]
      · rw [if_neg ‹_›, if_neg ‹_›]

theorem takeWhile_local {test : Char → Bool} (stops : Stops test)
    (room : Room text next (run test (text ++ more))) :
    (text ++ next).takeWhile test = (text ++ more).takeWhile test := by
  have same := run_local stops room
  rw [← take_run, ← take_run, same, List.take_append_of_le_length room.le,
    List.take_append_of_le_length room.le]

instance (test : Char → Bool) : Decidable (Stops test) :=
  decidable_of_iff ((breakChars.all fun c => !test c) = true) (by simp [Stops])

theorem stops_digit : Stops (isDigitIn 10) := by decide

theorem stops_digitIn {radix : Nat} {c : Char} (is : radixOf? c = some radix) :
    Stops (isDigitIn radix) := by
  rcases radixOf?_cases is with ⟨-, rfl⟩ | ⟨-, rfl⟩ | ⟨-, rfl⟩ <;> decide

theorem stops_identifier : Stops Unicode.isIdentifierContinue := by decide

/-! ## Numbers -/

theorem digits_local (room : Room text next (digits 10 (text ++ more))) :
    digits 10 (text ++ next) = digits 10 (text ++ more) :=
  run_local stops_digit room

theorem fraction_local (room : Room text next (fraction (text ++ more))) :
    fraction (text ++ next) = fraction (text ++ more) := by
  cases text with
  | nil =>
      have none : fraction more = 0 := Nat.le_zero.1 room.le
      rw [List.nil_append, List.nil_append, none]
      rcases fraction_cases next with none | ⟨rest, rfl, -⟩
      · exact none
      · exact absurd (room.break_of_nil '.' rfl) (by decide)
  | cons c text =>
      rw [List.cons_append, List.cons_append] at *
      by_cases point : c = '.'
      · subst point
        rw [fraction, Nat.add_comm] at room
        rw [fraction, fraction, digits_local room.cons]
      · rw [fraction.eq_2 _ (by simpa using point), fraction.eq_2 _ (by simpa using point)]

theorem sign_local (room : Room text next (sign (text ++ more))) :
    sign (text ++ next) = sign (text ++ more) := by
  cases text with
  | nil =>
      have none : sign more = 0 := Nat.le_zero.1 room.le
      rw [List.nil_append, List.nil_append, none]
      unfold sign
      split
      · exact absurd (room.break_of_nil '+' rfl) (by decide)
      · exact absurd (room.break_of_nil '-' rfl) (by decide)
      · rfl
  | cons c text =>
      rw [List.cons_append, List.cons_append, sign.eq_def, sign.eq_def]
      split <;> simp_all

theorem mantissa_local (room : Room text next (mantissa (text ++ more))) :
    mantissa (text ++ next) = mantissa (text ++ more) := by
  have whole : digits 10 (text ++ more) ≤ text.length := (room.mono (Nat.le_add_right _ _)).le
  have first := digits_local (room.mono (Nat.le_add_right _ _))
  have room := room.drop
  rw [List.drop_append_of_le_length whole] at room
  rw [mantissa, mantissa, first, List.drop_append_of_le_length whole,
    List.drop_append_of_le_length whole, fraction_local room]

/-- The sign and the digits of an exponent. -/
theorem exponent_local
    (room : Room text next (sign (text ++ more) + digits 10 ((text ++ more).drop (sign (text ++ more))))) :
    sign (text ++ next) = sign (text ++ more) ∧
      digits 10 ((text ++ next).drop (sign (text ++ next))) =
        digits 10 ((text ++ more).drop (sign (text ++ more))) := by
  have signed := room.mono (Nat.le_add_right _ _)
  have same := sign_local signed
  have room := room.drop
  rw [List.drop_append_of_le_length signed.le] at room
  rw [same, List.drop_append_of_le_length signed.le, List.drop_append_of_le_length signed.le]
  exact ⟨rfl, digits_local room⟩

/-- The part of a number after its mantissa. -/
def afterMantissa (mantissa : Nat) (kind : Kind) : List Char → Lexeme
  | c :: rest =>
    if c = 'e' ∨ c = 'E' then
      match digits 10 (rest.drop (sign rest)) with
      | 0 => ofFault (mantissa + 1 + sign rest) .invalidFloatExponent (mantissa + 1 + sign rest)
      | count => ofKind (mantissa + 1 + sign rest + count) .float
    else ofKind mantissa kind
  | [] => ofKind mantissa kind

theorem decimal_eq (text : List Char) : decimal text = afterMantissa (mantissa text)
    (if fraction (text.drop (digits 10 text)) = 0 then .int else .float) (text.drop (mantissa text)) := by
  unfold decimal afterMantissa mantissa
  rfl

theorem length_exponent (mantissa : Nat) (kind : Kind) {letter : Char} (is : letter = 'e' ∨ letter = 'E')
    (rest : List Char) : (afterMantissa mantissa kind (letter :: rest)).length =
      mantissa + (1 + (sign rest + digits 10 (rest.drop (sign rest)))) := by
  rw [afterMantissa, if_pos is]
  split
  · rename_i none
    rw [none]
    exact Nat.add_assoc mantissa 1 (sign rest)
  · exact (Nat.add_assoc _ _ _).trans (Nat.add_assoc _ _ _)

theorem afterMantissa_local {mantissa : Nat} {kind : Kind} {read : Nat}
    (length : (afterMantissa mantissa kind (text ++ more)).length = mantissa + read)
    (room : Room text next read) :
    afterMantissa mantissa kind (text ++ next) = afterMantissa mantissa kind (text ++ more) := by
  -- What is no exponent is not looked at.
  have plain {text : List Char} (none : ∀ c ∈ text.head?, ¬(c = 'e' ∨ c = 'E')) :
      afterMantissa mantissa kind text = ofKind mantissa kind := by
    cases text with
    | nil => rfl
    | cons c text => rw [afterMantissa, if_neg (none c rfl)]
  cases text with
  | nil =>
      have none : read = 0 := Nat.le_zero.1 room.le
      rw [List.nil_append, none] at length
      rw [List.nil_append, List.nil_append, plain, plain]
      · intro c mem is
        obtain ⟨rest, rfl⟩ := List.head?_eq_some_iff.1 mem
        rw [length_exponent mantissa kind is] at length
        omega
      · intro c mem is
        have among := room.break_of_nil c mem
        rcases is with rfl | rfl <;> exact absurd among (by decide)
  | cons c text =>
      by_cases is : c = 'e' ∨ c = 'E'
      · rw [List.cons_append, length_exponent mantissa kind is] at length
        rw [← Nat.add_left_cancel length] at room
        rw [Nat.add_comm] at room
        obtain ⟨signed, digits⟩ := exponent_local room.cons
        rw [List.cons_append, List.cons_append, afterMantissa, afterMantissa, if_pos is, if_pos is]
        rw [digits, signed]
      · rw [plain, plain] <;> rintro _ ⟨⟩ <;> exact is

theorem decimal_local (room : Room text next (decimal (text ++ more)).length) :
    decimal (text ++ next) = decimal (text ++ more) := by
  have inside := room.mono (mantissa_le _)
  have same := mantissa_local inside
  have whole := inside.mono (Nat.le_add_right _ _)
  have first := digits_local whole
  have part : fraction ((text ++ next).drop (digits 10 (text ++ next))) =
      fraction ((text ++ more).drop (digits 10 (text ++ more))) := by
    rw [mantissa, mantissa, first] at same
    rw [first]
    exact Nat.add_left_cancel same
  obtain ⟨read, length⟩ := Nat.exists_eq_add_of_le (mantissa_le (text ++ more))
  rw [length] at room
  rw [decimal_eq (text ++ more), List.drop_append_of_le_length inside.le] at length
  rw [decimal_eq, decimal_eq, part, same, List.drop_append_of_le_length inside.le,
    List.drop_append_of_le_length inside.le]
  exact afterMantissa_local length room.drop

theorem number_of_ne_zero (zero : c ≠ '0') (text : List Char) : number (c :: text) = decimal (c :: text) := by
  unfold number
  split <;> simp_all

theorem radixOf?_break : ∀ c ∈ breakChars, radixOf? c = none := forall_mem_of_all (by decide)

theorem number_zero_of_break (ends : IsBreak next) : number ('0' :: next) = decimal ('0' :: next) := by
  cases next with
  | nil => rfl
  | cons d next => rw [number, radixOf?_break d (ends d rfl)]

theorem two_le_radixLiteral (radix : Nat) (text : List Char) : 2 ≤ (radixLiteral radix text).length := by
  unfold radixLiteral
  split
  · exact Nat.le_refl _
  · exact Nat.le_add_right _ _

theorem one_le_decimal (digit : c.isDigit = true) (text : List Char) :
    1 ≤ (decimal (c :: text)).length := by
  have some := Nat.one_le_iff_ne_zero.2 (digits_ne_zero digit text)
  exact Nat.le_trans some (Nat.le_trans (Nat.le_add_right _ _) (mantissa_le _))

theorem radixLiteral_local {radix : Nat} (is : radixOf? c = some radix)
    (room : Room text next ((radixLiteral radix (text ++ more)).length - 2)) :
    radixLiteral radix (text ++ next) = radixLiteral radix (text ++ more) := by
  have same : digits radix (text ++ next) = digits radix (text ++ more) := by
    refine run_local (stops_digitIn is) (room.mono ?_)
    unfold radixLiteral
    split
    · exact Nat.le_of_eq ‹_›
    · exact Nat.le_of_eq (Nat.add_sub_cancel_left _ _).symm
  rw [radixLiteral, radixLiteral, same]

theorem number_local (room : Room (c :: text) next (number (c :: text ++ more)).length) :
    number (c :: text ++ next) = number (c :: text ++ more) := by
  by_cases zero : c = '0'
  · subst zero
    cases text with
    | nil =>
        have alone : number ('0' :: more) = decimal ('0' :: more) := by
          cases more with
          | nil => rfl
          | cons d more =>
              cases is : radixOf? d with
              | none => rw [number, is]
              | some radix =>
                  have long := room.le
                  rw [List.singleton_append, number, is] at long
                  exact absurd (Nat.le_trans (two_le_radixLiteral radix more) long) (by simp)
        rw [List.singleton_append, alone, ← List.singleton_append] at room
        have ends := (room.mono (one_le_decimal rfl more)).cons.break_of_nil
        rw [List.singleton_append, number_zero_of_break ends, List.singleton_append, alone]
        exact decimal_local room
    | cons d text =>
        simp only [List.cons_append] at room ⊢
        cases is : radixOf? d with
        | none =>
            have plain (rest : List Char) : number ('0' :: d :: rest) = decimal ('0' :: d :: rest) := by
              rw [number, is]
            rw [plain] at room
            rw [plain, plain]
            have room : Room ('0' :: d :: text) next (decimal ('0' :: d :: text ++ more)).length := room
            exact decimal_local room
        | some radix =>
            have literal (rest : List Char) : number ('0' :: d :: rest) = radixLiteral radix rest := by
              rw [number, is]
            obtain ⟨read, length⟩ := Nat.exists_eq_add_of_le (two_le_radixLiteral radix (text ++ more))
            rw [literal, length] at room
            rw [literal, literal]
            refine radixLiteral_local is ?_
            rw [length, Nat.add_sub_cancel_left]
            exact room.drop
  · rw [List.cons_append, List.cons_append, number_of_ne_zero zero, number_of_ne_zero zero] at *
    exact decimal_local room

theorem fraction_le (text : List Char) : fraction text ≤ text.length := by
  rcases fraction_cases text with none | ⟨rest, rfl, some⟩
  · exact none ▸ Nat.zero_le _
  · rw [some, List.length_cons, Nat.add_comm]
    exact Nat.succ_le_succ (run_le_length _ _)

theorem sign_le (text : List Char) : sign text ≤ text.length := by
  unfold sign
  split <;> simp

theorem length_decimal_le (text : List Char) : (decimal text).length ≤ text.length := by
  have whole : digits 10 text ≤ text.length := run_le_length _ _
  have part := fraction_le (text.drop (digits 10 text))
  rw [List.length_drop] at part
  have inside : mantissa text ≤ text.length := by
    rw [mantissa]
    omega
  rw [decimal_eq]
  cases left : text.drop (mantissa text) with
  | nil => exact inside
  | cons c rest =>
      have more := congrArg List.length left
      rw [List.length_drop, List.length_cons] at more
      by_cases is : c = 'e' ∨ c = 'E'
      · have signed := sign_le rest
        have some : digits 10 (rest.drop (sign rest)) ≤ (rest.drop (sign rest)).length := run_le_length _ _
        rw [List.length_drop] at some
        rw [length_exponent _ _ is]
        omega
      · rw [afterMantissa, if_neg is]
        exact inside

theorem length_number_le (text : List Char) : (number text).length ≤ text.length := by
  rcases number_cases text with is | ⟨c, rest, radix, rfl, letter, is⟩
  · exact is ▸ length_decimal_le text
  · have some : digits radix rest ≤ rest.length := run_le_length _ _
    rw [is, radixLiteral, List.length_cons, List.length_cons]
    split
    · exact Nat.le_add_left 2 _
    · change 2 + digits radix rest ≤ _
      omega

theorem isDigit_break : ∀ c ∈ breakChars, c.isDigit = false := forall_mem_of_all (by decide)

theorem point_of_digit (digit : c.isDigit = true) (text : List Char) :
    point (c :: text) = number ('.' :: c :: text) := if_pos digit

theorem point_alone (none : ∀ c ∈ text.head?, c.isDigit = false) : point text = ofKind 1 .dot := by
  refine if_neg fun digit => ?_
  cases text with
  | nil => cases digit
  | cons c text => exact absurd digit (by simp [none c rfl])

theorem two_le_point (digit : c.isDigit = true) (text : List Char) : 2 ≤ (point (c :: text)).length := by
  rw [point_of_digit digit, number_of_ne_zero (by decide)]
  have some := Nat.one_le_iff_ne_zero.2 (digits_ne_zero digit text)
  have whole : digits 10 ('.' :: c :: text) = 0 := by rw [digits, run_cons, if_neg (by decide)]
  refine Nat.le_trans ?_ (mantissa_le _)
  rw [mantissa, whole, List.drop_zero, fraction]
  omega

theorem point_local (room : Room ('.' :: text) next (point (text ++ more)).length) :
    point (text ++ next) = point (text ++ more) := by
  cases text with
  | nil =>
      have none : ∀ c ∈ more.head?, c.isDigit = false := by
        intro c mem
        obtain ⟨rest, rfl⟩ := List.head?_eq_some_iff.1 mem
        refine Bool.eq_false_iff.2 fun digit => ?_
        exact absurd (Nat.le_trans (two_le_point digit rest) room.le) (by simp)
      rw [List.nil_append, point_alone none] at room
      have ends : IsBreak next := Room.break_of_nil (Room.cons room)
      rw [List.nil_append, List.nil_append, point_alone none,
        point_alone fun c mem => isDigit_break c (ends c mem)]
  | cons d text =>
      rw [List.cons_append, List.cons_append] at *
      cases digit : d.isDigit with
      | true =>
          rw [point_of_digit digit] at *
          rw [point_of_digit digit]
          exact number_local room
      | false =>
          rw [point_alone, point_alone] <;> rintro _ ⟨⟩ <;> exact digit

/-! ## Words and symbols -/

theorem length_word (text : List Char) :
    (word text).length = run Unicode.isIdentifierContinue text := by
  unfold word
  dsimp only
  split <;> rfl

theorem word_local (room : Room text next (word (text ++ more)).length) :
    word (text ++ next) = word (text ++ more) := by
  rw [length_word] at room
  rw [word, word, takeWhile_local stops_identifier room]

theorem length_spelling_le (operator : Operator) : operator.spelling.toList.length ≤ 2 := by
  cases operator <;> decide

theorem not_break_of_mem_spelling (operator : Operator) :
    ∀ c ∈ operator.spelling.toList, c ∉ breakChars := by
  cases operator <;> exact forall_mem_of_all (by decide)

/-- An operator that goes on in what comes next does not if a break comes there. -/
theorem isPrefixOf_break {operator : Operator} (ends : IsBreak next)
    (longer : text.length < operator.spelling.toList.length) :
    operator.spelling.toList.isPrefixOf (text ++ next) = false := by
  refine Bool.eq_false_iff.2 fun isPrefix => ?_
  obtain ⟨rest, split⟩ := List.isPrefixOf_iff_prefix.1 isPrefix
  have here : (operator.spelling.toList ++ rest)[text.length]? = next.head? := by
    rw [split, List.getElem?_append_right (Nat.le_refl _), Nat.sub_self, List.head?_eq_getElem?]
  rw [List.getElem?_append_left longer] at here
  rw [List.getElem?_eq_getElem longer] at here
  exact not_break_of_mem_spelling operator _ (List.getElem_mem longer) (ends _ here.symm)

theorem isPrefixOf_inside {operator : Operator} (fits : operator.spelling.toList.length ≤ text.length)
    (next : List Char) : operator.spelling.toList.isPrefixOf (text ++ next) =
      operator.spelling.toList.isPrefixOf text := by
  rw [Bool.eq_iff_iff, List.isPrefixOf_iff_prefix, List.isPrefixOf_iff_prefix]
  exact ⟨fun isPrefix => List.prefix_of_prefix_length_le isPrefix (List.prefix_append _ _) fits,
    fun isPrefix => isPrefix.trans (List.prefix_append _ _)⟩

theorem one_le_symbol (c : Char) (text : List Char) : 1 ≤ (symbol c text).length := by
  unfold symbol
  split
  · rename_i operator found
    have some : 1 ≤ operator.spelling.length := by cases operator <;> decide
    dsimp only
    split
    · exact Nat.le_succ_of_le some
    · exact some
  · split <;> exact Nat.le_refl _

theorem longestOperator?_local (room : Room (c :: text) next (symbol c (text ++ more)).length) :
    longestOperator? (c :: text ++ next) = longestOperator? (c :: text ++ more) := by
  refine congrArg (List.find? · Operator.longestFirst) (funext fun operator => ?_)
  by_cases fits : operator.spelling.toList.length ≤ (c :: text).length
  · rw [isPrefixOf_inside fits, isPrefixOf_inside fits]
  · have ends : IsBreak next := by
      have short := length_spelling_le operator
      have nothing : text = [] := List.eq_nil_of_length_eq_zero (by rw [List.length_cons] at fits; omega)
      subst nothing
      exact (room.mono (one_le_symbol c _)).cons.break_of_nil
    rw [isPrefixOf_break ends (Nat.lt_of_not_le fits)]
    refine (Bool.eq_false_iff.2 fun isPrefix => fits ?_).symm
    exact Nat.le_trans (le_symbol isPrefix) room.le

/-- Whether an operator is joined with `=`. -/
theorem equals_local {count : Nat} {operator joined : Kind}
    (room : Room text next (if ((text ++ more).drop count).head? == some '=' then
      ofKind (count + 1) joined else ofKind count operator).length) :
    (((text ++ next).drop count).head? == some '=') = (((text ++ more).drop count).head? == some '=') := by
  have fits : Room text next count := by
    refine room.mono ?_
    split
    · exact Nat.le_succ _
    · exact Nat.le_refl _
  rw [List.drop_append_of_le_length fits.le] at room
  rw [List.drop_append_of_le_length fits.le, List.drop_append_of_le_length fits.le]
  cases rest : text.drop count with
  | cons => rfl
  | nil =>
      have whole := List.drop_eq_nil_iff.1 rest
      have room' : Room (text.drop count) next 0 := fits.drop
      rw [rest] at room room'
      rw [List.nil_append, List.nil_append]
      by_cases equals : (more.head? == some '=') = true
      · rw [List.nil_append, if_pos equals] at room
        exact absurd (Nat.le_trans room.le whole) (Nat.not_succ_le_self count)
      · rw [Bool.not_eq_true] at equals
        rw [equals, beq_eq_false_iff_ne]
        exact fun equals => absurd (room'.break_of_nil '=' equals) (by decide)

theorem symbol_local (room : Room (c :: text) next (symbol c (text ++ more)).length) :
    symbol c (text ++ next) = symbol c (text ++ more) := by
  have same := longestOperator?_local room
  rw [List.cons_append, List.cons_append] at same
  unfold symbol at room ⊢
  rw [same]
  cases found : longestOperator? (c :: (text ++ more)) with
  | none => rfl
  | some operator =>
      rw [found] at room
      dsimp only at room ⊢
      cases compound : operator.hasCompoundForm with
      | false => rfl
      | true =>
          rw [compound, Bool.true_and] at room
          have equals := equals_local room
          rw [List.cons_append, List.cons_append] at equals
          rw [Bool.true_and, Bool.true_and, equals]

theorem length_symbol_le (c : Char) (text : List Char) : (symbol c text).length ≤ text.length + 1 := by
  unfold symbol
  split
  · rename_i operator found
    have isPrefix : operator.spelling.toList.isPrefixOf (c :: text) = true :=
      List.find?_some (p := fun operator : Operator =>
        operator.spelling.toList.isPrefixOf (c :: text)) found
    have fits := (List.isPrefixOf_iff_prefix.1 isPrefix).length_le
    rw [← length_spelling, List.length_cons] at fits
    dsimp only
    split
    · rename_i compound
      simp only [Bool.and_eq_true, beq_iff_eq] at compound
      obtain ⟨rest, left⟩ := List.head?_eq_some_iff.1 compound.2
      have more := congrArg List.length left
      rw [List.length_drop, List.length_cons, List.length_cons] at more
      change operator.spelling.length + 1 ≤ _
      omega
    · exact fits
  · split <;> exact Nat.le_add_left _ _

end Lexeme
end StarlarkSyntax
