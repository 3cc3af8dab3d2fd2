import StarlarkSyntax.Lexed
import StarlarkSyntax.Proofs.Lexing.Munch
/-!
# Tokens with their assertions

The rules for numbers rely on the first character, which was looked at before one of them was chosen:
a number in base ten begins with a digit, unless a point came first, and a number in another base
begins with a zero and one of its letters. The checked rules look again. They give what the rules
give on every text, because the choice depends on just these characters (`lexeme_eq`, `tokenize_eq`).
-/

set_option autoImplicit false

namespace StarlarkSyntax.Checked

open Lexeme (ofKind digits isBlankInLine punctuation? stringLiteral? word symbol)
open Unicode (isIdentifierStart)

/-! ## Numbers -/

/-- An integer in another base, which has to begin with a zero and one of the letters. -/
def radixLiteral (letters : List Char) (radix : Nat) : List Char → Option Lexeme
  | zero :: letter :: text =>
    if zero = '0' ∧ letter ∈ letters then some (Lexeme.radixLiteral radix text) else none
  | _ => none

/-- A number in base ten, which has to begin with a digit. -/
def decimal (text : List Char) : Option Lexeme :=
  if digits 10 text = 0 then none else some (Lexeme.decimal text)

/-- A number. Of one that begins with a point nothing is asserted. -/
def number (text : List Char) : Option Lexeme :=
  match text with
  | '0' :: c :: _ =>
    if c = 'x' ∨ c = 'X' then radixLiteral ['x', 'X'] 16 text
    else if c = 'o' ∨ c = 'O' then radixLiteral ['o', 'O'] 8 text
    else if c = 'b' ∨ c = 'B' then radixLiteral ['b', 'B'] 2 text
    else decimal text
  | '.' :: _ => some (Lexeme.decimal text)
  | _ => decimal text

/-- A point, or the number that begins with it. -/
def point (text : List Char) : Option Lexeme :=
  if (text.head?.map Char.isDigit).getD false then number ('.' :: text) else some (ofKind 1 .dot)

/-! ## Lexemes -/

/-- What stands at the beginning of the text that has `c` as its first character. -/
def lexeme (c : Char) (text : List Char) : Option Lexeme :=
  if isBlankInLine c then some (ofKind (Lexeme.run isBlankInLine (c :: text)) .space)
  else match punctuation? c with
    | some kind => some (ofKind 1 kind)
    | none =>
      if c = '\\' then some (Lexeme.continuation text)
      else if c = '#' then some (ofKind (Lexeme.run (· ≠ '\n') (c :: text)) .comment)
      else if c = '.' then point text
      else match stringLiteral? (c :: text) with
        | some literal => some literal
        | none =>
          if c.isDigit then number (c :: text)
          else if isIdentifierStart c then some (word (c :: text))
          else some (symbol c text)

/-- The token at a cursor and the cursor after it, unless the text ends there. -/
def next? (cursor : Cursor) : Option (Option (Scanned × Cursor)) := do
  match cursor.rest with
  | [] => some none
  | c :: rest =>
    let found ← lexeme c rest
    let length := max 1 found.length
    let after := cursor.skip length
    let token (kind : Kind) : Token :=
      ⟨kind, .ofCarets cursor.caret after.caret, cursor.rest.take length, cursor.offset⟩
    match found.verdict with
    | .token kind => some (some (⟨token kind, none⟩, after))
    | .fault fault position =>
      some (some (⟨token .invalid, some ⟨fault, (cursor.skip position).caret⟩⟩, after))

/-! ## Numbers begin as they should -/

theorem decimal_eq {c : Char} (digit : c.isDigit = true) (text : List Char) :
    decimal (c :: text) = some (Lexeme.decimal (c :: text)) := by
  rw [decimal, if_neg (Lexeme.digits_ne_zero digit text)]

/-- After a zero, the letter decides which base is read. -/
theorem number_zero (letter : Char) (text : List Char) :
    number ('0' :: letter :: text) = some (Lexeme.number ('0' :: letter :: text)) := by
  have begun (letters : List Char) (radix : Nat) (among : letter ∈ letters) :
      radixLiteral letters radix ('0' :: letter :: text) =
        some (Lexeme.radixLiteral radix text) := by
    rw [radixLiteral, if_pos ⟨rfl, among⟩]
  rw [number, Lexeme.number, Lexeme.radixOf?]
  split
  · exact begun _ 16 (by simpa using ‹_›)
  split
  · exact begun _ 8 (by simpa using ‹_›)
  split
  · exact begun _ 2 (by simpa using ‹_›)
  · exact decimal_eq (by decide) _

theorem number_eq {c : Char} (digit : c.isDigit = true) (text : List Char) :
    number (c :: text) = some (Lexeme.number (c :: text)) := by
  by_cases radix : ∃ letter rest, c = '0' ∧ text = letter :: rest
  · obtain ⟨letter, rest, rfl, rfl⟩ := radix
    exact number_zero letter rest
  · have notRadix (letter : Char) (rest : List Char) : c :: text = '0' :: letter :: rest → False :=
      fun same => radix ⟨letter, rest, (List.cons.inj same).1, (List.cons.inj same).2⟩
    have notPoint (rest : List Char) : c :: text = '.' :: rest → False := by
      rintro ⟨⟩
      contradiction
    rw [number, Lexeme.number, decimal_eq digit]
    · exact notRadix
    · exact notRadix
    · exact notPoint

/-- After a point nothing is asserted. -/
theorem number_point (text : List Char) :
    number ('.' :: text) = some (Lexeme.number ('.' :: text)) := rfl

theorem point_eq (text : List Char) : point text = some (Lexeme.point text) := by
  rw [point, Lexeme.point, number_point]
  split <;> rfl

/-! ## The first character decides -/

theorem lexeme_eq (c : Char) (text : List Char) :
    lexeme c text = some (StarlarkSyntax.lexeme c text) := by
  rw [lexeme, StarlarkSyntax.lexeme]
  split
  · rfl
  cases punctuation? c with
  | some kind => rfl
  | none =>
      dsimp only
      split
      · rfl
      split
      · rfl
      split
      · exact point_eq text
      cases stringLiteral? (c :: text) with
      | some literal => rfl
      | none =>
          dsimp only
          split
          · exact number_eq ‹_› text
          · split <;> rfl

theorem next?_eq (cursor : Cursor) : next? cursor = some cursor.next? := by
  rw [next?, Cursor.next?]
  cases cursor.rest with
  | nil => rfl
  | cons c rest =>
      dsimp only
      rw [lexeme_eq]
      generalize StarlarkSyntax.lexeme c rest = found
      obtain ⟨length, verdict⟩ := found
      cases verdict <;> rfl

/-! ## Whole texts -/

theorem length_next? {cursor after : Cursor} {found : Scanned}
    (next : next? cursor = some (some (found, after))) : after.rest.length < cursor.rest.length :=
  Cursor.length_next? (Option.some.inj ((next?_eq cursor).symm.trans next))

/-- Reads all the tokens from a cursor on, behind those that have been read already. -/
def scanOnto (scanned : Array Scanned) (cursor : Cursor) : Option (Array Scanned) :=
  match _h : next? cursor with
  | none => none
  | some none => some scanned
  | some (some (found, after)) => scanOnto (scanned.push found) after
termination_by cursor.rest.length
decreasing_by exact length_next? ‹_›

/-- Reads a text into tokens. -/
def tokenize (text : List Char) : Option Lexed := do
  let scanned ← scanOnto #[] (.ofText text)
  some ⟨layout text (scanned.toList.map Scanned.token), scanned.toList.filterMap Scanned.error?⟩

theorem scanOnto_eq_some (scanned : Array Scanned) (cursor : Cursor) :
    scanOnto scanned cursor = some (cursor.scanOnto scanned) := by
  rw [scanOnto, Cursor.scanOnto]
  split
  next read => cases (next?_eq cursor).symm.trans read
  next read => rw [Option.some.inj ((next?_eq cursor).symm.trans read)]
  next found after read =>
    have shorter := length_next? read
    rw [Option.some.inj ((next?_eq cursor).symm.trans read)]
    exact scanOnto_eq_some (scanned.push found) after
termination_by cursor.rest.length

/-- No assertion fails when a text is read into tokens. -/
theorem tokenize_eq (text : List Char) : tokenize text = some (StarlarkSyntax.tokenize text) := by
  rw [tokenize, scanOnto_eq_some]
  rfl

end StarlarkSyntax.Checked
