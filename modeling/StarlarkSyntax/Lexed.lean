import StarlarkSyntax.Cursor
import StarlarkSyntax.Layout
/-!
# Lexed texts

A text is read into tokens, invalid ones included, and the layout pass is made over them. The
errors are kept beside the tokens: there is one for each invalid token, in the same order.
-/

set_option autoImplicit false

namespace StarlarkSyntax

/-- The tokens of a text and the reasons why some of them are invalid. -/
structure Lexed where
  tokens : List Token
  errors : List LexicalError
deriving Inhabited

/-- Reads a text into tokens. -/
def tokenize (text : List Char) : Lexed :=
  let scanned := (Cursor.ofText text).scan
  ⟨layout text (scanned.map Scanned.token), scanned.filterMap Scanned.error?⟩

end StarlarkSyntax
