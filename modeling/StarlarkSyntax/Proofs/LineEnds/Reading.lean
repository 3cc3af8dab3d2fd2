import StarlarkSyntax.Proofs.LineEnds.Layout
import StarlarkSyntax.Proofs.LineEnds.Literal
/-!
# Carriage returns before line feeds

With a carriage return before each line feed a text is read into tokens of the same kinds, apart from white
space and comments, and with as many errors (`kinds_withReturns`), unless a literal or what is invalid has a
backslash right before the end of a line. Each token goes as far as it did before (`widens_lexeme`), and only
white space, comments and literals that are not closed go on over the carriage return.
-/

set_option autoImplicit false

namespace StarlarkSyntax

open Lexeme
open Layout (Similar columnAfter)

theorem columnAfter_withReturns (column : Nat) (text : List Char) :
    columnAfter column (withReturns text) = columnAfter column text := by
  induction text generalizing column with
  | nil => rfl
  | cons c text ih =>
      by_cases feed : c = '\n'
      · subst feed
        exact ih 0
      · rw [withReturns_cons feed, ← List.singleton_append, Layout.columnAfter_append, ih,
          ← Layout.columnAfter_append, List.singleton_append]

/-! ## Runs -/

/-- A run that a line feed ends and a carriage return does not. -/
theorem run_withReturns {test : Char → Bool} (feed : test '\n' = false) (carriage : test '\r' = true)
    (text : List Char) : ∃ taken left further, text = taken ++ left ∧ '\n' ∉ taken ∧
      run test text = taken.length ∧ run test (withReturns text) = taken.length + further ∧
      Further left further := by
  induction text with
  | nil => exact ⟨[], [], 0, rfl, List.not_mem_nil, rfl, rfl, .none⟩
  | cons c text ih =>
      by_cases is : c = '\n'
      · subst is
        refine ⟨[], '\n' :: text, 1, rfl, List.not_mem_nil, ?_, ?_, .carriage⟩
        · rw [run_cons, if_neg (by simp [feed])]
          rfl
        · rw [withReturns_lineFeed, run_cons, if_pos carriage, run_cons, if_neg (by simp [feed])]
          rfl
      · rw [withReturns_cons is, run_cons, run_cons]
        split
        · obtain ⟨taken, left, further, rfl, line, length, length', next⟩ := ih
          refine ⟨c :: taken, left, further, rfl, List.not_mem_cons_of_ne_of_not_mem (Ne.symm is) line,
            ?_, ?_, next⟩
          · rw [length, List.length_cons]
          · rw [length', List.length_cons, Nat.add_right_comm]
        · exact ⟨[], c :: text, 0, rfl, List.not_mem_nil, rfl, rfl, .none⟩

/-! ## How far tokens go -/

theorem widens_run {c : Char} {test : Char → Bool} (kind : Kind) (first : test c = true)
    (feed : test '\n' = false) (carriage : test '\r' = true) (text : List Char) :
    Widens (c :: text) (.ofKind (run test (c :: text)) kind)
      (.ofKind (run test (c :: withReturns text)) kind) := by
  have other : c ≠ '\n' := by
    rintro rfl
    rw [first] at feed
    cases feed
  obtain ⟨taken, left, further, split, line, length, length', next⟩ :=
    run_withReturns feed carriage (c :: text)
  have some (text : List Char) : 1 ≤ run test (c :: text) := by
    rw [run_cons, if_pos first]
    exact Nat.le_add_left _ _
  rw [withReturns_cons other] at length'
  refine ⟨taken, left, further, split, next, ?_, fun _ => ⟨rfl, ?_⟩⟩
  · exact (Nat.max_eq_right (some text)).trans length
  · rw [withReturns_eq_self line, ← length']
    exact Nat.max_eq_right (some (withReturns text))

theorem widens_continuation {text : List Char} (noReturn : '\r' ∉ text) :
    Widens ('\\' :: text) (Lexeme.continuation text) (Lexeme.continuation (withReturns text)) := by
  cases text with
  | nil => exact .of_line (show '\n' ∉ ['\\'] by decide) rfl
  | cons c text =>
      by_cases feed : c = '\n'
      · subst feed
        exact ⟨['\\', '\n'], text, 0, rfl, .none, rfl, fun _ => ⟨rfl, rfl⟩⟩
      · have other : c ≠ '\r' := by
          rintro rfl
          exact noReturn List.mem_cons_self
        have alone (rest : List Char) :
            Lexeme.continuation (c :: rest) = ofFault 1 (.notStartOfToken '\\') 0 := by
          unfold Lexeme.continuation
          split <;> simp_all
        rw [withReturns_cons feed, alone, alone]
        exact .of_line (show '\n' ∉ ['\\'] by decide) rfl

theorem widens_literal {c : Char} {text letters : List Char} (feed : c ≠ '\n')
    (found : stringLetters? (c :: text) = some letters) :
    Widens (c :: text) (lexeme c text) (lexeme c (withReturns text)) := by
  have plain := plain_of_stringLetters? found
  obtain ⟨⟨raw, bytes, is⟩, quote, rest, quoted, split⟩ := stringLetters?_sound found
  have line : '\n' ∉ letters := fun mem => by cases continue_of_letters is '\n' mem
  have other := ne_of_isQuote quoted (c := '\n') (by decide)
  have split' : c :: withReturns text = letters ++ quote :: withReturns rest := by
    rw [← withReturns_cons feed, split, withReturns_append, withReturns_eq_self line,
      withReturns_cons (Ne.symm other)]
  have found' : stringLetters? (c :: withReturns text) = some letters :=
    split' ▸ stringLetters?_complete is quoted _
  rw [lexeme_plain plain, lexeme_plain plain, stringLiteral?_of_letters found split,
    stringLiteral?_of_letters found' split', split]
  exact widens_quoted quoted line rest

/-- The rest of a line. -/
theorem exists_line (text : List Char) : ∃ line left, text = line ++ left ∧ '\n' ∉ line ∧
    IsBreak left ∧ IsBreak (withReturns left) := by
  induction text with
  | nil => exact ⟨[], [], rfl, List.not_mem_nil, .nil, .nil⟩
  | cons c text ih =>
      by_cases feed : c = '\n'
      · subst feed
        exact ⟨[], '\n' :: text, rfl, List.not_mem_nil, .lineFeed text, .cons (by decide) _⟩
      · obtain ⟨line, left, rfl, one, ends, ends'⟩ := ih
        exact ⟨c :: line, left, rfl, List.not_mem_cons_of_ne_of_not_mem (Ne.symm feed) one, ends, ends'⟩

/-- Other tokens end before the end of their line. -/
theorem widens_inLine {c : Char} {text : List Char} (feed : c ≠ '\n') (notBlank : isBlankInLine c = false)
    (backslash : c ≠ '\\') (hash : c ≠ '#') (none : stringLetters? (c :: text) = none) :
    Widens (c :: text) (lexeme c text) (lexeme c (withReturns text)) := by
  obtain ⟨line, left, rfl, one, ends, ends'⟩ := exists_line text
  have noLiteral : stringLiteral? (c :: line) = .none := by
    cases found : stringLetters? (c :: line) with
    | none => rw [stringLiteral?, found]
    | some letters =>
        obtain ⟨⟨raw, bytes, is⟩, quote, rest, quoted, split⟩ := stringLetters?_sound found
        have found' := stringLetters?_complete is quoted (rest ++ left)
        rw [← List.cons_append, ← List.append_assoc, ← split, List.cons_append, none] at found'
        cases found'
  rw [withReturns_append, withReturns_eq_self one, lexeme_break notBlank backslash hash noLiteral ends,
    lexeme_break notBlank backslash hash noLiteral ends']
  have fits := length_lexeme_le c line
  have whole : c :: (line ++ left) = (c :: line).take (max 1 (lexeme c line).length) ++
      ((c :: line).drop (max 1 (lexeme c line).length) ++ left) := by
    rw [← List.append_assoc, List.take_append_drop, List.cons_append]
  rw [whole]
  refine .of_line (fun mem => ?_) ?_
  · rcases List.mem_cons.1 (List.mem_of_mem_take mem) with rfl | mem
    · exact feed rfl
    · exact one mem
  · rw [List.length_take, List.length_cons]
    omega

/-- With carriage returns a token goes on over the one before the next line feed at most. -/
theorem widens_lexeme {c : Char} {text : List Char} (feed : c ≠ '\n') (noReturn : '\r' ∉ text) :
    Widens (c :: text) (lexeme c text) (lexeme c (withReturns text)) := by
  by_cases blank : isBlankInLine c = true
  · rw [lexeme, lexeme, if_pos blank, if_pos blank]
    exact widens_run .space blank rfl rfl text
  by_cases backslash : c = '\\'
  · subst backslash
    exact widens_continuation noReturn
  by_cases hash : c = '#'
  · subst hash
    exact widens_run .comment rfl rfl rfl text
  cases found : stringLetters? (c :: text) with
  | some letters => exact widens_literal feed found
  | none => exact widens_inLine feed (Bool.eq_false_iff.2 blank) backslash hash found

/-! ## All tokens -/

/-- The tokens of a text with carriage returns are those of the text, but for white space. -/
theorem similar_contents (text : List Char) (noReturn : '\r' ∉ text)
    (apart : ∀ content ∈ contents text, content.1.1 = .space ∨ ¬Joins content.1.2) :
    Similar ((contents text).map bareToken) ((contents (withReturns text)).map bareToken) := by
  cases text with
  | nil =>
      rw [withReturns_nil, contents_nil]
      exact .nil
  | cons c text =>
      rw [List.mem_cons, not_or] at noReturn
      by_cases feed : c = '\n'
      · subst feed
        rw [contents_lineFeed] at apart ⊢
        have similar := similar_contents text noReturn.2 (List.forall_mem_cons.1 apart).2
        rw [withReturns_lineFeed, contents_blank rfl]
        exact .gap rfl (fun _ => rfl) (List.cons_ne_nil _ _)
          (contents_lineFeed (withReturns text) ▸ .cons rfl nofun similar)
      obtain ⟨taken, left, further, split, next, length, widens⟩ := widens_lexeme feed noReturn.2
      have body : (contentOf c text).1.2 = taken := by rw [contentOf, reach, length, split, List.take_left]
      have rest : (c :: text).drop (reach c text) = left := by rw [reach, length, split, List.drop_left]
      have split' : c :: withReturns text = withReturns taken ++ withReturns left := by
        rw [← withReturns_cons feed, split, withReturns_append]
      rw [contents_cons, rest] at apart ⊢
      obtain ⟨here, apart⟩ := List.forall_mem_cons.1 apart
      rw [body] at here
      obtain ⟨kind, length'⟩ := widens here.resolve_left
      have noReturn' : '\r' ∉ left := fun mem => by
        have mem : '\r' ∈ c :: text := split ▸ List.mem_append_right taken mem
        exact (List.mem_cons.1 mem).elim noReturn.1 noReturn.2
      have shorter : left.length < text.length + 1 := by
        have := congrArg List.length split
        rw [List.length_cons, List.length_append] at this
        omega
      rw [withReturns_cons feed, contents_cons, split', reach, length']
      cases next with
      | none =>
          have body' : (contentOf c (withReturns text)).1.2 = withReturns taken := by
            rw [contentOf, split', reach, length', Nat.add_zero, List.take_left]
          rw [Nat.add_zero, List.drop_left]
          refine .cons kind (fun _ column => ?_) (similar_contents left noReturn' apart)
          rw [bareToken, bareToken, body, body', columnAfter_withReturns]
      | @carriage tail =>
          have shorter' : tail.length < text.length + 1 := Nat.lt_of_succ_lt shorter
          have body' : (contentOf c (withReturns text)).1.2 = withReturns taken ++ ['\r'] := by
            rw [contentOf, split', reach, length', List.take_length_add_append]
            rfl
          rw [List.drop_length_add_append]
          rw [contents_lineFeed] at apart ⊢
          have similar := similar_contents tail (fun mem => noReturn' (List.mem_cons_of_mem _ mem))
            (List.forall_mem_cons.1 apart).2
          refine .cons kind (fun _ column => ?_)
            (contents_lineFeed (withReturns tail) ▸ .cons rfl nofun similar)
          rw [bareToken, bareToken, body, body', Layout.columnAfter_append, columnAfter_withReturns]
          rfl
termination_by text.length
decreasing_by
  all_goals subst_vars
  · exact Nat.lt_succ_self _
  · exact shorter
  · exact shorter'

/-- There are as many errors as there are invalid tokens. -/
theorem length_errors (text : List Char) : (tokenize text).errors.length =
    (((contents text).map bareToken).map Token.kind).count .invalid := by
  have length := length_messages text
  rw [messages, List.length_map, ← List.countP_eq_length_filter] at length
  rw [length, List.countP_map, List.map_map, List.count, List.countP_map]
  rfl

/-- With a carriage return before each line feed a text has tokens of the same kinds, but for white space and
comments, and as many errors, if no line is joined with the next one in a literal or in what is invalid. -/
theorem kinds_withReturns {text : List Char} (noReturn : '\r' ∉ text)
    (apart : ∀ token ∈ (Cursor.ofText text).read, token.kind = .space ∨ ¬Joins token.body) :
    (Layout.pieces (tokenize (withReturns text)).tokens).map Prod.fst =
        (Layout.pieces (tokenize text).tokens).map Prod.fst ∧
      (tokenize (withReturns text)).errors.length = (tokenize text).errors.length := by
  have similar : Similar ((contents text).map bareToken) ((contents (withReturns text)).map bareToken) := by
    refine similar_contents text noReturn fun content mem => ?_
    obtain ⟨scanned, among, rfl⟩ := List.mem_map.1 mem
    exact apart scanned.token (List.mem_map_of_mem among)
  refine ⟨?_, ?_⟩
  · rw [pieces_contents, pieces_contents]
    exact Layout.kinds_lineByLine similar
  · rw [length_errors, length_errors]
    exact similar.count (by decide)

/-- Lines may be joined outside of literals, and literals may have several lines. -/
example :
    let text := "if a \\\n:\n \"\"\"b\n\"\"\" # c\n".toList
    '\r' ∉ text ∧ ∀ token ∈ (Cursor.ofText text).read, token.kind = .space ∨ ¬Joins token.body := by
  decide +kernel

/-- In a literal the carriage return comes between the backslash and the end of the line. -/
theorem kinds_withReturns_joined :
    let text := "\"a\\\nb\"".toList
    (Layout.pieces (tokenize (withReturns text)).tokens).map Prod.fst ≠
      (Layout.pieces (tokenize text).tokens).map Prod.fst := by
  decide +kernel

end StarlarkSyntax
