import Mathlib.Data.List.Chain
import StarlarkSyntax.Cursor
/-!
# What the reading of tokens gives

The tokens that are read from a text follow one another without gaps (`Consecutive`), and their
bodies put together are the text. None of them is a token of layout, and after a comment the line
ends, because a comment runs up to the next line feed.
-/

set_option autoImplicit false

namespace StarlarkSyntax

/-- Each token begins where the one before it ends, and the first begins after some bytes. -/
def Token.Consecutive : Nat → List Token → Prop
  | _, [] => True
  | offset, token :: tokens => token.offset = offset ∧ Consecutive token.stop tokens

/-! ## What a lexeme can be -/

namespace Lexeme

theorem drop_run (test : Char → Bool) (text : List Char) :
    text.drop (run test text) = text.dropWhile test := by
  induction text with
  | nil => rfl
  | cons c text ih =>
      rw [run_cons, List.dropWhile_cons]
      split
      · exact ih
      · rfl

/-- If the lexeme is a token, then a grammar sees it, and it is no layout. -/
def Solid (lexeme : Lexeme) : Prop :=
  ∀ kind, lexeme.verdict = .token kind → kind.isSignificant = true ∧ kind.isLayout = false

theorem solid_ofFault (length : Nat) (fault : LexicalFault) (position : Nat) :
    (ofFault length fault position).Solid := by
  intro kind is
  simp [ofFault] at is

theorem solid_ofKind {kind : Kind} (length : Nat) (significant : kind.isSignificant = true)
    (layout : kind.isLayout = false) : (ofKind length kind).Solid := by
  intro kind' is
  cases is
  exact ⟨significant, layout⟩

theorem solid_decimal (text : List Char) : (decimal text).Solid := by
  have mantissa (length point : Nat) :
      (ofKind length (if point = 0 then Kind.int else Kind.float)).Solid := by
    split <;> exact solid_ofKind _ rfl rfl
  unfold decimal
  dsimp only
  split
  · split
    · split
      · exact solid_ofFault _ _ _
      · exact solid_ofKind _ rfl rfl
    · exact mantissa _ _
  · exact mantissa _ _

theorem solid_number (text : List Char) : (number text).Solid := by
  unfold number
  split
  · split
    · unfold radixLiteral
      split
      · exact solid_ofFault _ _ _
      · exact solid_ofKind _ rfl rfl
    · exact solid_decimal _
  · exact solid_decimal _

theorem solid_quoted (letters : List Char) (quote : Char) (text : List Char) :
    (quoted letters quote text).Solid := by
  have literal (length : Nat) :
      (ofKind length (if letters.any isBytesLetter then Kind.bytes else Kind.string)).Solid := by
    split <;> exact solid_ofKind _ rfl rfl
  unfold quoted
  dsimp only
  split
  · exact solid_ofFault _ _ _
  · split
    · exact literal _
    · split
      · exact solid_ofFault _ _ _
      · exact literal _

theorem solid_stringLiteral? {text : List Char} {literal : Lexeme}
    (found : stringLiteral? text = some literal) : literal.Solid := by
  unfold stringLiteral? at found
  split at found
  · contradiction
  · split at found
    · cases found
      exact solid_quoted _ _ _
    · contradiction

theorem solid_word (text : List Char) : (word text).Solid := by
  unfold word
  dsimp only
  split <;> exact solid_ofKind _ rfl rfl

theorem solid_symbol (c : Char) (text : List Char) : (symbol c text).Solid := by
  unfold symbol
  dsimp only
  split
  · split <;> exact solid_ofKind _ rfl rfl
  · split
    · exact solid_ofKind _ rfl rfl
    · exact solid_ofFault _ _ _

theorem solid_point (text : List Char) : (point text).Solid := by
  unfold point
  split
  · exact solid_number _
  · exact solid_ofKind _ rfl rfl

end Lexeme

open Lexeme in
/-- A lexeme is solid, or it is white space, the end of a line, or a comment up to there. -/
theorem lexeme_cases (c : Char) (text : List Char) :
    (lexeme c text).Solid ∨ (∃ length, lexeme c text = ofKind length .space) ∨
      lexeme c text = ofKind 1 .lineBreak ∨
        lexeme c text = ofKind (run (· ≠ '\n') (c :: text)) .comment := by
  unfold lexeme
  split
  · exact .inr (.inl ⟨_, rfl⟩)
  split
  · rename_i kind found
    by_cases lineBreak : kind = .lineBreak
    · subst lineBreak
      exact .inr (.inr (.inl rfl))
    · refine .inl ?_
      unfold punctuation? at found
      split at found <;> cases found <;>
        first | exact solid_ofKind _ rfl rfl | exact absurd rfl lineBreak
  split
  · unfold continuation
    split
    · exact .inr (.inl ⟨_, rfl⟩)
    · exact .inr (.inl ⟨_, rfl⟩)
    · exact .inl (solid_ofFault _ _ _)
  split
  · exact .inr (.inr (.inr rfl))
  refine .inl ?_
  split
  · exact solid_point _
  split
  · rename_i found
    exact solid_stringLiteral? found
  split
  · exact solid_number _
  split
  · exact solid_word _
  · exact solid_symbol _ _

theorem lexeme_lineFeed (text : List Char) : lexeme '\n' text = Lexeme.ofKind 1 .lineBreak := rfl

open Lexeme in
theorem isLayout_of_lexeme {c : Char} {text : List Char} {kind : Kind}
    (is : (lexeme c text).verdict = .token kind) : kind.isLayout = false := by
  rcases lexeme_cases c text with solid | ⟨length, space⟩ | lineBreak | comment
  · exact (solid kind is).2
  · rw [space] at is
    cases is
    rfl
  · rw [lineBreak] at is
    cases is
    rfl
  · rw [comment] at is
    cases is
    rfl

open Lexeme in
/-- What is no token is not called one. -/
theorem valid_of_lexeme {c : Char} {text : List Char} {kind : Kind}
    (is : (lexeme c text).verdict = .token kind) : kind ≠ .invalid := by
  rintro rfl
  rcases lexeme_cases c text with solid | ⟨length, space⟩ | lineBreak | comment
  · cases (solid .invalid is).1
  · rw [space] at is
    cases is
  · rw [lineBreak] at is
    cases is
  · rw [comment] at is
    cases is

open Lexeme in
theorem length_of_comment {c : Char} {text : List Char}
    (is : (lexeme c text).verdict = .token .comment) :
    (lexeme c text).length = run (· ≠ '\n') (c :: text) := by
  rcases lexeme_cases c text with solid | ⟨length, space⟩ | lineBreak | comment
  · exact absurd (solid .comment is).1 (by decide)
  · rw [space] at is
    cases is
  · rw [lineBreak] at is
    cases is
  · rw [comment]
    rfl

namespace Cursor

/-! ## One token at a time -/

theorem scanOnto_eq (scanned : Array Scanned) (cursor : Cursor) :
    (cursor.scanOnto scanned).toList = scanned.toList ++ cursor.scan := by
  unfold scan
  rw [scanOnto, scanOnto]
  split
  · simp
  · rename_i found after next
    have shorter := length_next? next
    rw [scanOnto_eq (scanned.push found) after, scanOnto_eq (#[].push found) after]
    simp
termination_by cursor.rest.length

theorem scan_of_none {cursor : Cursor} (next : cursor.next? = none) : cursor.scan = [] := by
  rw [scan, scanOnto]
  split
  · rfl
  · simp_all

theorem scan_of_some {cursor after : Cursor} {found : Scanned}
    (next : cursor.next? = some (found, after)) : cursor.scan = found :: after.scan := by
  rw [scan, scanOnto]
  split
  · simp_all
  · rename_i found' after' next'
    cases next.symm.trans next'
    rw [scanOnto_eq]
    rfl

/-- A token covers the text up to where the next one begins. -/
theorem next?_spec {cursor after : Cursor} {found : Scanned}
    (next : cursor.next? = some (found, after)) :
    cursor.rest = found.token.body ++ after.rest ∧ found.token.offset = cursor.offset ∧
      found.token.stop = after.offset := by
  unfold next? at next
  split at next
  · contradiction
  · dsimp only at next
    split at next <;> simp only [Option.some.injEq, Prod.mk.injEq] at next <;>
      obtain ⟨rfl, rfl⟩ := next <;> simp [skip, Token.stop]

theorem next?_eq_none {cursor : Cursor} (next : cursor.next? = none) : cursor.rest = [] := by
  unfold next? at next
  split at next
  · assumption
  · dsimp only at next
    split at next <;> contradiction

/-- The kind that a verdict gives a token. -/
def kindOf : Verdict → Kind
  | .token kind => kind
  | .fault _ _ => .invalid

theorem next?_cons {cursor after : Cursor} {found : Scanned} {c : Char} {rest : List Char}
    (text : cursor.rest = c :: rest) (next : cursor.next? = some (found, after)) :
    found.token.kind = kindOf (lexeme c rest).verdict ∧
      after.rest = (c :: rest).drop (max 1 (lexeme c rest).length) := by
  unfold next? at next
  rw [text] at next
  dsimp only at next
  split at next <;> rename_i verdict <;> simp only [Option.some.injEq, Prod.mk.injEq] at next <;>
    obtain ⟨rfl, rfl⟩ := next <;> simp [verdict, kindOf, skip, text]

theorem exists_cons {cursor after : Cursor} {found : Scanned}
    (next : cursor.next? = some (found, after)) : ∃ c rest, cursor.rest = c :: rest := by
  cases text : cursor.rest with
  | nil => simp [next?, text] at next
  | cons c rest => exact ⟨c, rest, rfl⟩

theorem isLayout_of_next? {cursor after : Cursor} {found : Scanned}
    (next : cursor.next? = some (found, after)) : found.token.kind.isLayout = false := by
  obtain ⟨c, rest, text⟩ := exists_cons next
  rw [(next?_cons text next).1]
  cases verdict : (lexeme c rest).verdict with
  | token kind => exact isLayout_of_lexeme verdict
  | fault => rfl

/-- After a comment the line ends, or the text does. -/
theorem rest_of_comment {cursor after : Cursor} {found : Scanned}
    (next : cursor.next? = some (found, after)) (comment : found.token.kind = .comment)
    {c : Char} {rest : List Char} (more : after.rest = c :: rest) : c = '\n' := by
  obtain ⟨c', rest', text⟩ := exists_cons next
  obtain ⟨kind, drop⟩ := next?_cons text next
  rw [comment] at kind
  cases verdict : (lexeme c' rest').verdict with
  | fault => simp [verdict, kindOf] at kind
  | token is =>
      rw [verdict] at kind
      cases kind
      by_cases lineFeed : c' = '\n'
      · subst lineFeed
        simp [lexeme_lineFeed, Lexeme.ofKind] at verdict
      · have length := length_of_comment verdict
        rw [Lexeme.run_cons, if_pos (by simpa using lineFeed)] at length
        rw [length, more, Nat.max_eq_right (Nat.succ_pos _), List.drop_succ_cons,
          Lexeme.drop_run] at drop
        have stops := List.head?_dropWhile_not (fun c => decide (c ≠ '\n')) rest'
        rw [← drop] at stops
        simpa using stops

/-! ## All tokens -/

/-- All the tokens from a cursor on. -/
def read (cursor : Cursor) : List Token := cursor.scan.map Scanned.token

theorem read_nil {cursor : Cursor} (text : cursor.rest = []) : cursor.read = [] := by
  have none : cursor.next? = none := by rw [next?, text]
  rw [read, scan_of_none none, List.map_nil]

theorem read_of_some {cursor after : Cursor} {found : Scanned}
    (next : cursor.next? = some (found, after)) : cursor.read = found.token :: after.read := by
  rw [read, scan_of_some next, List.map_cons, read]

theorem textOf_scan (cursor : Cursor) :
    Token.textOf (cursor.scan.map Scanned.token) = cursor.rest := by
  cases next : cursor.next? with
  | none => simp [scan_of_none next, next?_eq_none next]
  | some found =>
      obtain ⟨found, after⟩ := found
      have shorter := length_next? next
      rw [scan_of_some next, List.map_cons, Token.textOf_cons, textOf_scan after,
        (next?_spec next).1]
termination_by cursor.rest.length

/-- There are no tokens only where there is no text. -/
theorem isEmpty_scan (cursor : Cursor) :
    cursor.rest.isEmpty = (cursor.scan.map Scanned.token).isEmpty := by
  cases next : cursor.next? with
  | none => rw [scan_of_none next, next?_eq_none next]; rfl
  | some found =>
      obtain ⟨found, after⟩ := found
      obtain ⟨c, rest, text⟩ := exists_cons next
      rw [scan_of_some next, text]
      rfl

theorem consecutive_scan (cursor : Cursor) :
    Token.Consecutive cursor.offset (cursor.scan.map Scanned.token) := by
  cases next : cursor.next? with
  | none =>
      rw [scan_of_none next]
      trivial
  | some found =>
      obtain ⟨found, after⟩ := found
      have shorter := length_next? next
      obtain ⟨-, start, stop⟩ := next?_spec next
      rw [scan_of_some next, List.map_cons]
      exact ⟨start, stop ▸ consecutive_scan after⟩
termination_by cursor.rest.length

theorem isLayout_of_mem_scan (cursor : Cursor) :
    ∀ token ∈ cursor.scan.map Scanned.token, token.kind.isLayout = false := by
  cases next : cursor.next? with
  | none => simp [scan_of_none next]
  | some found =>
      obtain ⟨found, after⟩ := found
      have shorter := length_next? next
      rw [scan_of_some next, List.map_cons]
      exact List.forall_mem_cons.2 ⟨isLayout_of_next? next, isLayout_of_mem_scan after⟩
termination_by cursor.rest.length

/-- After a comment the line ends. -/
theorem isChain_scan (cursor : Cursor) : (cursor.scan.map Scanned.token).IsChain fun token next =>
    token.kind = .comment → next.kind = .lineBreak := by
  cases next : cursor.next? with
  | none =>
      rw [scan_of_none next]
      exact .nil
  | some found =>
      obtain ⟨found, after⟩ := found
      have shorter := length_next? next
      have ih := isChain_scan after
      rw [scan_of_some next, List.map_cons]
      cases next' : after.next? with
      | none =>
          rw [scan_of_none next']
          exact .singleton _
      | some found' =>
          obtain ⟨found', after'⟩ := found'
          rw [scan_of_some next', List.map_cons] at ih ⊢
          refine .cons_cons (fun comment => ?_) ih
          obtain ⟨c, rest, text⟩ := exists_cons next'
          cases rest_of_comment next comment text
          rw [(next?_cons text next').1]
          rfl
termination_by cursor.rest.length

end Cursor
end StarlarkSyntax
