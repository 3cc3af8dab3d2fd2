import StarlarkSyntax.Source.Span
import StarlarkSyntax.Token.Kind
/-!
# Tokens

A token is a stretch of the text with a kind. It keeps the characters it covers, so that the text
can be put together again from its tokens, and says where it stands both by carets and by the
number of bytes before it in UTF-8.
-/

set_option autoImplicit false

namespace StarlarkSyntax

/-- The bytes that a text takes in UTF-8. -/
def utf8Length : List Char → Nat
  | [] => 0
  | c :: text => c.utf8Size + utf8Length text

@[simp] theorem utf8Length_nil : utf8Length [] = 0 := rfl

@[simp] theorem utf8Length_cons (c : Char) (text : List Char) :
    utf8Length (c :: text) = c.utf8Size + utf8Length text := rfl

@[simp] theorem utf8Length_append (s t : List Char) :
    utf8Length (s ++ t) = utf8Length s + utf8Length t := by
  induction s with
  | nil => simp
  | cons c s ih => simp [ih, Nat.add_assoc]

@[simp] theorem utf8Length_reverse (text : List Char) : utf8Length text.reverse = utf8Length text := by
  induction text with
  | nil => rfl
  | cons c text ih => simp [ih, Nat.add_comm]

/-- A stretch of the text with a kind. -/
structure Token where
  kind : Kind
  span : Span
  /-- The characters that the token covers. -/
  body : List Char
  /-- The bytes of the text before the token. -/
  offset : Nat
deriving DecidableEq, Inhabited

namespace Token

/-- The bytes of the text before the end of the token. -/
def stop (token : Token) : Nat :=
  token.offset + utf8Length token.body

/-- A token of no width. -/
def zeroWidth (kind : Kind) (caret : Caret) (offset : Nat) : Token :=
  ⟨kind, .point caret, [], offset⟩

/-- The text of a sequence of tokens. -/
def textOf (tokens : List Token) : List Char :=
  tokens.flatMap Token.body

@[simp] theorem textOf_nil : textOf [] = [] := rfl

@[simp] theorem textOf_cons (token : Token) (tokens : List Token) :
    textOf (token :: tokens) = token.body ++ textOf tokens := rfl

@[simp] theorem textOf_append (s t : List Token) : textOf (s ++ t) = textOf s ++ textOf t := by
  simp [textOf]

end Token
end StarlarkSyntax
