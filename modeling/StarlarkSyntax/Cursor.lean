import StarlarkSyntax.Lexeme.Grammar
/-!
# Cursors: places in a text that is being read

A cursor is a place in a text together with what is left to read there. It moves over single
characters, over expected texts and runs of characters, or over whole tokens, and it always knows
its caret and its distance in bytes from the start of the text.

Every movement is `Cursor.skip` by some number of characters, so `caret` and `offset` keep step with
what was read. `Cursor.next?` always passes over at least one character, also where there is no
token; `length_next?` says so, and it is what ends the reading of all the tokens.
-/

set_option autoImplicit false

namespace StarlarkSyntax

/-- A place in a text that is being read. -/
structure Cursor where
  /-- What is left to read. -/
  rest : List Char
  caret : Caret
  /-- The bytes of the text that have been read. -/
  offset : Nat
deriving DecidableEq, Inhabited

/-- A token, and the reason why it is invalid if it is. -/
structure Scanned where
  token : Token
  error? : Option LexicalError
deriving DecidableEq, Inhabited

namespace Cursor

/-- The start of a text. -/
def ofText (text : List Char) : Cursor :=
  ⟨text, {}, 0⟩

/-- Has the whole text been read? -/
def isEmpty (cursor : Cursor) : Bool :=
  cursor.rest.isEmpty

/-- The bytes of the text that are left. -/
def remaining (cursor : Cursor) : Nat :=
  utf8Length cursor.rest

/-- The place after some more characters, or the end of the text. -/
def skip (cursor : Cursor) (count : Nat) : Cursor :=
  let read := cursor.rest.take count
  ⟨cursor.rest.drop count, cursor.caret.advanceOver read, cursor.offset + utf8Length read⟩

/-! ## Characters -/

/-- The next character. -/
def peek? (cursor : Cursor) : Option Char :=
  cursor.rest.head?

/-- The character that comes after `n` others. -/
def peekNth? (cursor : Cursor) (n : Nat) : Option Char :=
  cursor.rest[n]?

/-- Moves past the next character. -/
def advance (cursor : Cursor) : Option Char × Cursor :=
  (cursor.peek?, cursor.skip 1)

/-- Moves past the next character if it satisfies a test. -/
def satisfy (test : Char → Bool) (cursor : Cursor) : Option Char × Cursor :=
  match cursor.peek? with
  | some c => if test c then (some c, cursor.skip 1) else (none, cursor)
  | none => (none, cursor)

/-- Moves past an expected character. -/
def char (expected : Char) (cursor : Cursor) : Option Char × Cursor :=
  cursor.satisfy (· == expected)

/-- Moves past one of several characters. -/
def oneOf (choices : List Char) (cursor : Cursor) : Option Char × Cursor :=
  cursor.satisfy choices.contains

/-- Moves past the characters of an expected text for as long as they are there. If only the
beginning of the text is there, the cursor stays after it. -/
def text : List Char → Cursor → Option Unit × Cursor
  | [], cursor => (some (), cursor)
  | c :: expected, cursor =>
    match cursor.char c with
    | (some _, cursor) => cursor.text expected
    | (none, cursor) => (none, cursor)

/-- Moves past several expected texts in turn. -/
def texts : List (List Char) → Cursor → Option Unit × Cursor
  | [], cursor => (some (), cursor)
  | expected :: more, cursor =>
    match cursor.text expected with
    | (some _, cursor) => cursor.texts more
    | (none, cursor) => (none, cursor)

/-- Follows a rule, but stays in place if the rule fails. -/
def optional {α : Type} (rule : Cursor → Option α × Cursor) (cursor : Cursor) :
    Option α × Cursor :=
  match rule cursor with
  | (some value, cursor) => (some value, cursor)
  | (none, _) => (none, cursor)

/-- Moves past the characters that satisfy a test, which may be none. -/
def takeWhile (test : Char → Bool) (cursor : Cursor) : List Char × Cursor :=
  (cursor.rest.takeWhile test, cursor.skip (Lexeme.run test cursor.rest))

/-! ## Tokens -/

/-- The token at a cursor and the cursor after it. Characters that are no token make an invalid one,
at least one of them at a time, so that all of the text ends up in tokens. -/
def next? (cursor : Cursor) : Option (Scanned × Cursor) :=
  match cursor.rest with
  | [] => none
  | c :: rest =>
    let found := lexeme c rest
    let length := max 1 found.length
    let after := cursor.skip length
    let token (kind : Kind) : Token :=
      ⟨kind, .ofCarets cursor.caret after.caret, cursor.rest.take length, cursor.offset⟩
    match found.verdict with
    | .token kind => some (⟨token kind, none⟩, after)
    | .fault fault position =>
      some (⟨token .invalid, some ⟨fault, (cursor.skip position).caret⟩⟩, after)

theorem skip_rest (cursor : Cursor) (count : Nat) :
    (cursor.skip count).rest = cursor.rest.drop count := rfl

theorem length_next? {cursor after : Cursor} {scanned : Scanned}
    (h : cursor.next? = some (scanned, after)) : after.rest.length < cursor.rest.length := by
  unfold next? at h
  split at h
  · simp at h
  · rename_i c rest hrest
    have hlt : ∀ n, (cursor.skip (max 1 n)).rest.length < cursor.rest.length := by
      intro n
      rw [skip_rest, List.length_drop, hrest, List.length_cons]
      omega
    dsimp only at h
    split at h <;> simp only [Option.some.injEq, Prod.mk.injEq] at h <;> exact h.2 ▸ hlt _

/-- Reads all the tokens from a cursor on, behind those that have been read already. -/
def scanOnto (scanned : Array Scanned) (cursor : Cursor) : Array Scanned :=
  match _h : cursor.next? with
  | none => scanned
  | some (found, after) => scanOnto (scanned.push found) after
termination_by cursor.rest.length
decreasing_by exact length_next? ‹_›

/-- All the tokens from a cursor on. -/
def scan (cursor : Cursor) : List Scanned :=
  (cursor.scanOnto #[]).toList

end Cursor
end StarlarkSyntax
