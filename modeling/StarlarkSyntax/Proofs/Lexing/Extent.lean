import StarlarkSyntax.Proofs.Lexing.Local
import StarlarkSyntax.Proofs.Lexing.Munch
/-!
# Where string literals end, and what they amount to

The contents of a literal are passed from left to right, and a backslash is passed together with the
character after it. What stands at a place that the scan comes to (`StandsAt`) is not escaped. So a literal
ends where its closing quotes stand first, unless a line feed stands before them that it may not have
(`Ends`), and an escape is at fault if its backslash stands somewhere and no escape that is known comes
after it (`FaultyAt`).

What a literal amounts to follows from these places alone (`Amounts`). Its letters have a say in the kind and
in whether escapes are looked at, but none in where it ends (`next?_literal`).
-/

set_option autoImplicit false

namespace StarlarkSyntax

namespace Lexeme

open Language

variable {quote c d : Char} {triple : Bool} {quotes what text rest : List Char} {i : Nat}

/-! ## Places that a scan comes to -/

/-- A scan that begins before the text comes to its end. -/
inductive Passed : List Char → Prop
  | nil : Passed []
  | char {c : Char} {text : List Char} : c ≠ '\\' → Passed text → Passed (c :: text)
  | escape {c : Char} {text : List Char} : Passed text → Passed ('\\' :: c :: text)

/-- Some characters stand at a place of the text that a scan comes to. -/
def StandsAt (what text : List Char) (i : Nat) : Prop :=
  Passed (text.take i) ∧ what <+: text.drop i

/-- A backslash that makes no escape stands at a place, and this character after it. -/
def FaultyAt (text : List Char) (i : Nat) (c : Char) : Prop :=
  Passed (text.take i) ∧ ∃ rest, text.drop i = '\\' :: c :: rest ∧ ¬Escape c rest

theorem passed_char (other : c ≠ '\\') : Passed (c :: text) ↔ Passed text :=
  ⟨fun passed => by cases passed <;> trivial, .char other⟩

theorem passed_escape : Passed ('\\' :: c :: text) ↔ Passed text :=
  ⟨fun passed => by cases passed <;> trivial, .escape⟩

theorem standsAt_zero : StandsAt what text 0 ↔ what <+: text :=
  ⟨And.right, fun here => ⟨.nil, here⟩⟩

theorem standsAt_char (other : c ≠ '\\') : StandsAt what (c :: text) (i + 1) ↔ StandsAt what text i :=
  and_congr_left fun _ => passed_char other

theorem standsAt_escape : StandsAt what ('\\' :: c :: text) (i + 2) ↔ StandsAt what text i :=
  and_congr_left fun _ => passed_escape

/-- No scan comes between a backslash and the character after it. -/
theorem not_standsAt_one : ¬StandsAt what ('\\' :: text) 1 := by
  rintro ⟨passed, -⟩
  cases passed
  contradiction

/-- Where the text after the opening quotes of a literal ends it. -/
inductive Ends (quotes text : List Char) : Extent → Prop
  | closed {i : Nat} : StandsAt quotes text i → (∀ j < i, ¬StandsAt quotes text j) →
      (quotes.length = 1 → ∀ j < i, ¬StandsAt ['\n'] text j) → Ends quotes text (.closed i)
  | line {i : Nat} : quotes.length = 1 → StandsAt ['\n'] text i →
      (∀ j ≤ i, ¬StandsAt quotes text j) → (∀ j < i, ¬StandsAt ['\n'] text j) →
      Ends quotes text (.unclosed i)
  | text : (∀ j, ¬StandsAt quotes text j) → (quotes.length = 1 → ∀ j, ¬StandsAt ['\n'] text j) →
      Ends quotes text (.unclosed text.length)

/-- The same extent, counted from an earlier place. -/
def Extent.after (read : Nat) : Extent → Extent
  | closed length => closed (read + length)
  | unclosed length => unclosed (read + length)

/-- Characters that are passed before the end. -/
theorem Ends.pass (front : List Char) {extent : Extent}
    (same : ∀ what i, StandsAt what (front ++ text) (front.length + i) ↔ StandsAt what text i)
    (quotes' : ∀ j < front.length, ¬StandsAt quotes (front ++ text) j)
    (line : quotes.length = 1 → ∀ j < front.length, ¬StandsAt ['\n'] (front ++ text) j)
    (ends : Ends quotes text extent) : Ends quotes (front ++ text) (extent.after front.length) := by
  have before {what : List Char} (here : ∀ j < front.length, ¬StandsAt what (front ++ text) j) {j : Nat}
      (there : ∀ i, j = front.length + i → ¬StandsAt what text i) : ¬StandsAt what (front ++ text) j := by
    rcases Nat.lt_or_ge j front.length with lt | le
    · exact here j lt
    · obtain ⟨i, rfl⟩ := Nat.exists_eq_add_of_le le
      rw [same]
      exact there i rfl
  cases ends with
  | closed stands first lines =>
      refine .closed ((same _ _).2 stands) (fun j lt => before quotes' fun i is => ?_)
        fun single j lt => before (line single) fun i is => ?_
      · exact first i (by omega)
      · exact lines single i (by omega)
  | line single stands first lines =>
      refine .line single ((same _ _).2 stands) (fun j le => before quotes' fun i is => ?_)
        fun j lt => before (line single) fun i is => ?_
      · exact first i (by omega)
      · exact lines i (by omega)
  | text none lines =>
      have all : (front ++ text).length = front.length + text.length := List.length_append
      rw [Extent.after, ← all]
      exact .text (fun j => before quotes' fun i _ => none i)
        fun single j => before (line single) fun i _ => lines single i

theorem isPrefix_quotesOf :
    quotesOf quote triple <+: c :: text ↔ c = quote ∧ (triple = true → text.take 2 = [quote, quote]) := by
  cases triple with
  | false => simp [quotesOf, eq_comm]
  | true =>
      rw [quotesOf, if_pos rfl, List.cons_prefix_cons, List.prefix_iff_eq_take]
      simp [eq_comm]

theorem length_quotesOf_eq_one : (quotesOf quote triple).length = 1 ↔ triple = false := by
  cases triple <;> simp [quotesOf]

theorem standsAt_lineFeed : StandsAt ['\n'] (c :: text) 0 ↔ c = '\n' := by
  rw [standsAt_zero, List.cons_prefix_cons]
  exact ⟨fun is => is.1.symm, fun is => ⟨is.symm, List.nil_prefix⟩⟩

theorem standsAt_quotesOf : StandsAt (quotesOf quote triple) (c :: text) 0 ↔
    (c = quote && (!triple || text.take 2 == [quote, quote])) = true := by
  rw [standsAt_zero, isPrefix_quotesOf]
  cases triple <;> simp

/-- Neither quotes nor a line feed stand at a backslash. -/
theorem not_standsAt_backslash (other : quote ≠ '\\') (triple : Bool) (text : List Char) :
    ¬StandsAt (quotesOf quote triple) ('\\' :: text) 0 ∧ ¬StandsAt ['\n'] ('\\' :: text) 0 := by
  constructor
  · rw [standsAt_zero, isPrefix_quotesOf]
    exact fun is => other is.1.symm
  · rw [standsAt_lineFeed]
    decide

theorem Ends.escape {extent : Extent} (other : quote ≠ '\\')
    (ends : Ends (quotesOf quote triple) text extent) (d : Char) :
    Ends (quotesOf quote triple) ('\\' :: d :: text) (extent.after 2) := by
  obtain ⟨notQuotes, notFeed⟩ := not_standsAt_backslash other triple (d :: text)
  have within {what : List Char} (here : ¬StandsAt what ('\\' :: d :: text) 0) :
      ∀ j < 2, ¬StandsAt what ('\\' :: d :: text) j := by
    rintro (_ | _ | j) lt
    · exact here
    · exact not_standsAt_one
    · omega
  refine ends.pass ['\\', d] (fun what i => ?_) (within notQuotes) fun _ => within notFeed
  rw [show ['\\', d].length + i = i + 2 from Nat.add_comm 2 i]
  exact standsAt_escape

theorem Ends.char {extent : Extent} (other : c ≠ '\\') (goesOn : ¬(c = '\n' && !triple) = true)
    (opens : ¬(c = quote && (!triple || text.take 2 == [quote, quote])) = true)
    (ends : Ends (quotesOf quote triple) text extent) :
    Ends (quotesOf quote triple) (c :: text) (extent.after 1) := by
  refine ends.pass [c] (fun what i => ?_) (fun j lt => ?_) fun single j lt => ?_
  · rw [show [c].length + i = i + 1 from Nat.add_comm 1 i]
    exact standsAt_char other
  · rw [Nat.lt_one_iff.1 lt]
    exact fun stands => opens (standsAt_quotesOf.1 stands)
  · rw [Nat.lt_one_iff.1 lt]
    refine fun stands => goesOn ?_
    rw [standsAt_lineFeed.1 stands, length_quotesOf_eq_one.1 single]
    rfl

/-- The first faulty escape among so many characters of a text, if there is any, as it is said with the
position after its backslash where the text begins at some position. -/
def FirstFaulty (text : List Char) (length read : Nat) : Option (Nat × Char) → Prop
  | none => ∀ i < length, ∀ c, ¬FaultyAt text i c
  | some (position, c) => ∃ i < length, position = read + i + 1 ∧ FaultyAt text i c ∧
      ∀ j < i, ∀ d, ¬FaultyAt text j d

/-- Characters without a faulty escape are passed. -/
theorem FirstFaulty.pass (front : List Char) {length read : Nat} {found : Option (Nat × Char)}
    (same : ∀ i c, FaultyAt (front ++ text) (front.length + i) c ↔ FaultyAt text i c)
    (fine : ∀ j < front.length, ∀ c, ¬FaultyAt (front ++ text) j c)
    (first : FirstFaulty text length (read + front.length) found) :
    FirstFaulty (front ++ text) (front.length + length) read found := by
  have before {j : Nat} {c : Char} (there : ∀ i, j = front.length + i → ¬FaultyAt text i c) :
      ¬FaultyAt (front ++ text) j c := by
    rcases Nat.lt_or_ge j front.length with lt | le
    · exact fine j lt c
    · obtain ⟨i, rfl⟩ := Nat.exists_eq_add_of_le le
      rw [same]
      exact there i rfl
  cases found with
  | none => exact fun j lt c => before fun i is => first i (by omega) c
  | some place =>
      obtain ⟨i, lt, position, faulty, first⟩ := first
      refine ⟨front.length + i, by omega, by omega, (same _ _).2 faulty, fun j lt d => ?_⟩
      exact before fun i is => first i (by omega) d

/-- The characters from the opening quotes of a literal on that belong to it. -/
def Extent.width (quotes : List Char) : Extent → Nat
  | closed length => quotes.length + length + quotes.length
  | unclosed length => quotes.length + length

variable {raw bytes : Bool} {letters : List Char}

end Lexeme

open Lexeme Language

end StarlarkSyntax
