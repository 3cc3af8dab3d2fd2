import StarlarkSyntax.Token.Basic
/-!
# Lexemes: how far a token reaches and what it is

The rules of the lexical grammar look at the text from some place on and answer with a `Lexeme`:
how many characters the token has, and either its kind or the reason why those characters are no
token. Nothing stops the reading of a text, since characters that are no token are still kept, so
every rule says how far it got even when it found a fault.
-/

set_option autoImplicit false

namespace StarlarkSyntax

/-- The reason why some characters are no token. -/
inductive LexicalFault where
  | notStartOfToken (c : Char)
  | unclosedString
  /-- The character is the one after the backslash. -/
  | invalidEscape (c : Char)
  | invalidFloatExponent
  | invalidRadixLiteral (radix : Nat)
deriving DecidableEq, Inhabited

/-- What is said about a fault. -/
def LexicalFault.message : LexicalFault → String
  | notStartOfToken c => "no token can start with '" ++ c.toString ++ "'"
  | unclosedString => "string literal is missing its closing quote"
  | invalidEscape c => "'\\" ++ c.toString ++ "' is not a valid escape sequence"
  | invalidFloatExponent => "floating point exponent must have at least one digit"
  | invalidRadixLiteral radix =>
    "base " ++ toString radix ++ " integer literal must have at least one digit"

/-- A fault, and the place in the text where it was found. -/
structure LexicalError where
  fault : LexicalFault
  caret : Caret
deriving DecidableEq, Inhabited

/-- What is said about an error. -/
def LexicalError.message (error : LexicalError) : String :=
  error.fault.message

/-- What a stretch of characters turned out to be. -/
inductive Verdict where
  | token (kind : Kind)
  /-- The fault was found after this many characters. -/
  | fault (fault : LexicalFault) (position : Nat)
deriving DecidableEq, Inhabited

/-- What the characters at some place turned out to be, and how many of them belong to it. -/
structure Lexeme where
  length : Nat
  verdict : Verdict
deriving DecidableEq, Inhabited

namespace Lexeme

/-- A token of a known length. -/
def ofKind (length : Nat) (kind : Kind) : Lexeme :=
  ⟨length, .token kind⟩

/-- Characters that are no token. -/
def ofFault (length : Nat) (fault : LexicalFault) (position : Nat) : Lexeme :=
  ⟨length, .fault fault position⟩

/-- How many characters at the beginning of a text satisfy a test. -/
def run (test : Char → Bool) (text : List Char) : Nat :=
  (text.takeWhile test).length

@[simp] theorem run_nil (test : Char → Bool) : run test [] = 0 := rfl

theorem run_cons (test : Char → Bool) (c : Char) (text : List Char) :
    run test (c :: text) = if test c then run test text + 1 else 0 := by
  unfold run
  rw [List.takeWhile_cons]
  split <;> simp

theorem run_le_length (test : Char → Bool) (text : List Char) : run test text ≤ text.length :=
  (List.takeWhile_sublist test).length_le

end Lexeme
end StarlarkSyntax
