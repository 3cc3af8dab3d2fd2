import StarlarkSyntax.Proofs.Lexing.Contents
/-!
# White space and comments as they are read

A line without code is read into tokens of trivia that end with the end of the line (`BareLine.contents`). What
may stand between two tokens inside brackets is read into trivia as well, together with the blanks that come
after it (`Filler.contents`) and with the white space before it (`Filler.contents_after`).
-/

set_option autoImplicit false

namespace StarlarkSyntax

open Lexeme

/-- There is nothing but white space and comments among some tokens. -/
def Trivial (contents : List Content) : Prop :=
  ∀ content ∈ contents, content.1.1.isTrivia = true ∧ content.2 = none

namespace Trivial

variable {contents more : List Content}

theorem nil : Trivial [] := List.forall_mem_nil _

theorem cons {piece : Layout.Piece} (trivia : piece.1.isTrivia = true) (others : Trivial more) :
    Trivial ((piece, none) :: more) := List.forall_mem_cons.2 ⟨⟨trivia, rfl⟩, others⟩

theorem append (first : Trivial contents) (second : Trivial more) : Trivial (contents ++ more) :=
  List.forall_mem_append.2 ⟨first, second⟩

end Trivial

/-! ## Single tokens -/

theorem contents_of_lexeme {c : Char} {body rest : List Char} {kind : Kind}
    (is : lexeme c (body ++ rest) = .ofKind (body.length + 1) kind) :
    contents (c :: (body ++ rest)) = ((kind, c :: body), none) :: contents rest := by
  have reaches : reach c (body ++ rest) = body.length + 1 := by
    rw [reach, is]
    exact Nat.max_eq_right (Nat.le_add_left _ _)
  rw [contents_of_reach reaches, contentOf, reaches, is, List.take_succ_cons, List.take_left]
  rfl

theorem contents_blank {c : Char} (blank : isBlankInLine c = true) (rest : List Char) :
    contents (c :: rest) = ((.space, c :: rest.takeWhile isBlankInLine), none) ::
      contents (rest.dropWhile isBlankInLine) := by
  have is : lexeme c (rest.takeWhile isBlankInLine ++ rest.dropWhile isBlankInLine) =
      .ofKind ((rest.takeWhile isBlankInLine).length + 1) .space := by
    rw [List.takeWhile_append_dropWhile, lexeme, if_pos blank, run_cons, if_pos blank, run]
  have same := contents_of_lexeme is
  rwa [List.takeWhile_append_dropWhile] at same

theorem contents_lineFeed (rest : List Char) :
    contents ('\n' :: rest) = ((.lineBreak, ['\n']), none) :: contents rest := by
  have is : lexeme '\n' ([] ++ rest) = .ofKind 1 .lineBreak := lexeme_lineFeed rest
  exact contents_of_lexeme is

theorem lexeme_backslash (rest : List Char) : lexeme '\\' rest = Lexeme.continuation rest := rfl

/-- The end of a line that has been joined with the next one. -/
theorem contents_joined {gap : List Char} (is : gap = ['\\', '\n'] ∨ gap = ['\\', '\r', '\n'])
    (rest : List Char) : contents (gap ++ rest) = ((.space, gap), none) :: contents rest := by
  rcases is with rfl | rfl
  · exact contents_of_lexeme (lexeme_backslash ('\n' :: rest))
  · exact contents_of_lexeme (lexeme_backslash ('\r' :: '\n' :: rest))

theorem lexeme_hash (rest : List Char) :
    lexeme '#' rest = .ofKind (run (· ≠ '\n') ('#' :: rest)) .comment := rfl

theorem contents_hash {text : List Char} (line : '\n' ∉ text) (rest : List Char) :
    contents ('#' :: (text ++ '\n' :: rest)) =
      ((.comment, '#' :: text), none) :: contents ('\n' :: rest) := by
  have goesOn : ∀ c ∈ text, decide (c ≠ '\n') = true := by
    refine fun c mem => decide_eq_true ?_
    rintro rfl
    exact line mem
  have counted : run (· ≠ '\n') ('#' :: (text ++ '\n' :: rest)) = text.length + 1 := by
    rw [run_cons, if_pos (by decide), run_append goesOn, run_cons, if_neg (by decide)]
  have is : lexeme '#' (text ++ '\n' :: rest) = .ofKind (text.length + 1) .comment := by
    rw [lexeme_hash, counted]
  exact contents_of_lexeme is

/-- White space is passed over, and what follows it is read. -/
theorem exists_skip (text : List Char) :
    ∃ trivia, Trivial trivia ∧ contents text = trivia ++ contents (text.dropWhile isBlankInLine) := by
  cases text with
  | nil => exact ⟨[], .nil, rfl⟩
  | cons c rest =>
      by_cases blank : isBlankInLine c = true
      · refine ⟨[((.space, c :: rest.takeWhile isBlankInLine), none)], .cons rfl .nil, ?_⟩
        rw [contents_blank blank, List.dropWhile_cons_of_pos blank, List.singleton_append]
      · refine ⟨[], .nil, ?_⟩
        rw [List.dropWhile_cons_of_neg blank]
        rfl

/-! ## Lines without code -/

/-- A blank line, or one with nothing but a comment on it. -/
inductive BareLine : List Char → Prop
  | blank {blanks : List Char} : (∀ c ∈ blanks, isBlankInLine c = true) → BareLine (blanks ++ ['\n'])
  | comment {blanks text : List Char} : (∀ c ∈ blanks, isBlankInLine c = true) → '\n' ∉ text →
      BareLine (blanks ++ '#' :: (text ++ ['\n']))

theorem contents_blanks {blanks : List Char} (all : ∀ c ∈ blanks, isBlankInLine c = true) {rest : List Char}
    (solid : ∀ c ∈ rest.head?, isBlankInLine c = false) :
    ∃ trivia, Trivial trivia ∧ (∀ content ∈ trivia, content.1.1 ≠ .lineBreak) ∧
      contents (blanks ++ rest) = trivia ++ contents rest := by
  cases blanks with
  | nil => exact ⟨[], .nil, List.forall_mem_nil _, rfl⟩
  | cons c blanks =>
      obtain ⟨blank, all⟩ := List.forall_mem_cons.1 all
      have stops : rest.dropWhile isBlankInLine = rest := by
        cases rest with
        | nil => rfl
        | cons d rest => exact List.dropWhile_cons_of_neg (by simp [solid d rfl])
      refine ⟨[((.space, c :: (blanks ++ rest).takeWhile isBlankInLine), none)], .cons rfl .nil, by simp, ?_⟩
      rw [List.cons_append, contents_blank blank, List.dropWhile_append_of_pos all, stops,
        List.singleton_append]

theorem BareLine.contents {line : List Char} (bare : BareLine line) (rest : List Char) :
    ∃ trivia, Trivial trivia ∧ (∀ content ∈ trivia, content.1.1 ≠ .lineBreak) ∧
      contents (line ++ rest) = trivia ++ ((.lineBreak, ['\n']), none) :: StarlarkSyntax.contents rest := by
  cases bare with
  | blank blanks =>
      have solid : ∀ c ∈ ('\n' :: rest).head?, isBlankInLine c = false := by simp; rfl
      obtain ⟨trivia, passed, inLine, same⟩ := contents_blanks blanks solid
      refine ⟨trivia, passed, inLine, ?_⟩
      rw [List.append_assoc, List.singleton_append, same, contents_lineFeed]
  | @comment _ text blanks line =>
      have solid : ∀ c ∈ ('#' :: (text ++ '\n' :: rest)).head?, isBlankInLine c = false := by simp; rfl
      obtain ⟨trivia, passed, inLine, same⟩ := contents_blanks blanks solid
      refine ⟨trivia ++ [((.comment, '#' :: text), none)], passed.append (.cons rfl .nil), ?_, ?_⟩
      · exact List.forall_mem_append.2 ⟨inLine, by simp⟩
      · rw [List.append_assoc, List.cons_append, List.append_assoc, List.singleton_append, same,
          contents_hash line, contents_lineFeed, List.append_assoc, List.singleton_append]

/-! ## Between tokens inside brackets -/

/-- Spaces, ends of lines, and comments with the ends of their lines. -/
inductive Filler : List Char → Prop
  | nil : Filler []
  | blank {c : Char} {rest : List Char} : isBlankInLine c = true → Filler rest → Filler (c :: rest)
  | lineFeed {rest : List Char} : Filler rest → Filler ('\n' :: rest)
  | comment {text rest : List Char} : '\n' ∉ text → Filler rest → Filler ('#' :: (text ++ '\n' :: rest))

namespace Filler

variable {filler : List Char}

/-- Apart from the blanks at its beginning. -/
theorem exists_skip (fills : Filler filler) (rest : List Char) : ∃ trivia, Trivial trivia ∧
    StarlarkSyntax.contents ((filler ++ rest).dropWhile isBlankInLine) =
      trivia ++ StarlarkSyntax.contents (rest.dropWhile isBlankInLine) := by
  induction fills with
  | nil => exact ⟨[], .nil, rfl⟩
  | blank is _ ih => rwa [List.cons_append, List.dropWhile_cons_of_pos is]
  | @lineFeed filler _ ih =>
      obtain ⟨trivia, passed, same⟩ := ih
      obtain ⟨blanks, passed', same'⟩ := StarlarkSyntax.exists_skip (filler ++ rest)
      refine ⟨((.lineBreak, ['\n']), none) :: (blanks ++ trivia), .cons rfl (passed'.append passed), ?_⟩
      rw [List.cons_append, List.dropWhile_cons_of_neg (by decide), contents_lineFeed, same', same,
        List.cons_append, List.append_assoc]
  | @comment text filler line _ ih =>
      obtain ⟨trivia, passed, same⟩ := ih
      obtain ⟨blanks, passed', same'⟩ := StarlarkSyntax.exists_skip (filler ++ rest)
      refine ⟨((.comment, '#' :: text), none) :: ((.lineBreak, ['\n']), none) :: (blanks ++ trivia),
        .cons rfl (.cons rfl (passed'.append passed)), ?_⟩
      rw [List.cons_append, List.append_assoc, List.cons_append, List.dropWhile_cons_of_neg (by decide),
        contents_hash line, contents_lineFeed, same', same, List.cons_append, List.cons_append,
        List.append_assoc]

theorem contents (fills : Filler filler) (rest : List Char) : ∃ trivia, Trivial trivia ∧
    contents (filler ++ rest) = trivia ++ StarlarkSyntax.contents (rest.dropWhile isBlankInLine) := by
  obtain ⟨blanks, passed, same⟩ := StarlarkSyntax.exists_skip (filler ++ rest)
  obtain ⟨trivia, passed', same'⟩ := fills.exists_skip rest
  exact ⟨blanks ++ trivia, passed.append passed', by rw [same, same', List.append_assoc]⟩

/-- With a token of white space before it. -/
theorem contents_after {gap : List Char} (space : Language.Space gap) (fills : Filler filler)
    (rest : List Char) : ∃ trivia, Trivial trivia ∧ StarlarkSyntax.contents (gap ++ (filler ++ rest)) =
      trivia ++ StarlarkSyntax.contents (rest.dropWhile isBlankInLine) := by
  cases space with
  | run blanks =>
      obtain ⟨-, all⟩ := blanks
      have both : Filler (gap ++ filler) := by
        induction gap with
        | nil => exact fills
        | cons c gap ih =>
            obtain ⟨blank, all⟩ := List.forall_mem_cons.1 all
            exact .blank blank (ih all)
      rw [← List.append_assoc]
      exact both.contents rest
  | joined =>
      obtain ⟨trivia, passed, same⟩ := fills.contents rest
      refine ⟨((.space, ['\\', '\n']), none) :: trivia, .cons rfl passed, ?_⟩
      rw [contents_joined (.inl rfl), same, List.cons_append]
  | joinedCarriage =>
      obtain ⟨trivia, passed, same⟩ := fills.contents rest
      refine ⟨((.space, ['\\', '\r', '\n']), none) :: trivia, .cons rfl passed, ?_⟩
      rw [contents_joined (.inr rfl), same, List.cons_append]

/-- A token ends before it. -/
theorem isBreak (fills : Filler filler) (some : filler ≠ []) (rest : List Char) : IsBreak (filler ++ rest) := by
  cases fills with
  | nil => contradiction
  | @blank c filler is =>
      refine .cons ?_ (filler ++ rest)
      simp only [isBlankInLine, Bool.or_eq_true, decide_eq_true_eq] at is
      rcases is with ((rfl | rfl) | rfl) | rfl <;> decide
  | lineFeed => exact .lineFeed _
  | comment => exact .cons (by decide) _

end Filler

end StarlarkSyntax
