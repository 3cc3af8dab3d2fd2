import StarlarkSyntax.Builder.Assembly
import StarlarkSyntax.Grammar.Statement
/-!
# Parsing

`parse` reads any text at all into a tree. The tree has every token of the text among its leaves, so
that the text can be had back from it, and it has an error node with a message for everything that
does not fit the grammar.

A text that the grammar never gets to the end of would have no tree, which `parse?` allows for; there
is no such text.
-/

set_option autoImplicit false

namespace StarlarkSyntax

/-- Something in a text that does not fit the grammar. -/
structure SyntaxError where
  message : String
  /-- Where it is; empty if something is missing there. -/
  span : Span
deriving DecidableEq, Inhabited

/-- What reading a program gave. -/
structure Parse where
  /-- The tree of the whole file. -/
  root : Tree
  /-- All the tokens of the text, in order. -/
  tokens : List Token
deriving Inhabited

namespace Parse

/-- What does not fit the grammar, in the order of the tree. -/
def errors (parse : Parse) : List SyntaxError :=
  parse.root.errors.map fun (message, span) => ⟨message, span⟩

/-- Does anything not fit the grammar? -/
def hasErrors (parse : Parse) : Bool :=
  !parse.errors.isEmpty

end Parse

/-- Reads a text, if that ever ends. -/
def parse? (text : List Char) : Option Parse := do
  let lexed := tokenize text
  let (_, parser) ← Grammar.file.run { builder := .ofLexed lexed }
  pure { root := parser.builder.finish, tokens := lexed.tokens }

/-- Reads a text. -/
def parse (text : List Char) : Parse :=
  (parse? text).getD default

end StarlarkSyntax
