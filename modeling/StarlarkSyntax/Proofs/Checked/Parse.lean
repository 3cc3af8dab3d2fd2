import StarlarkSyntax.Proofs.Checked.Assembly
import StarlarkSyntax.Proofs.Checked.Lexing
import StarlarkSyntax.Proofs.Checked.Statement
import StarlarkSyntax.Proofs.Twin.File
/-!
# No assertion fails

Reading a text into tokens, following the grammar and making the tree each have their assertions.
`Checked.parse?` does all of it and gives nothing where one of them fails. It gives the parse of every
text (`checked_parse`): the tokens are the same (`tokenize_eq`), the rule of a file does what it does
without assertions (`mirrors_file`) and is known to end, and it leaves a builder whose beginnings are
all resolved and closed (`Stands.finish_eq_some`).
-/

set_option autoImplicit false

namespace StarlarkSyntax

namespace Checked

/-- Reads a text, unless an assertion fails. -/
def parse? (text : List Char) : Option Parse := do
  let lexed ← tokenize text
  let (_, watched) ← file { parser := { builder := .ofLexed lexed } }
  let root ← finish watched.parser.builder
  pure { root, tokens := lexed.tokens }

/-- At the start of a text there are no marks. -/
theorem live_ofLexed (lexed : Lexed) :
    Live Anywhere { builder := .ofLexed lexed } 0 []
      { parser := { builder := .ofLexed lexed } } where
  since := ⟨Builder.since_ofLexed lexed, rfl, rfl, rfl, Nat.zero_le _⟩
  stands := trivial
  stamped := rfl
  owned := nofun
  begun := nofun
  nested := .nil

end Checked

/-- Whatever the text, no assertion fails when it is parsed. -/
theorem checked_parse (text : List Char) : Checked.parse? text = some (parse text) := by
  obtain ⟨_, after, ran, made, adds, -, -⟩ := Grammar.reaches_file (tokenize text)
  obtain ⟨_, watched, ran', same, -⟩ := Checked.mirrors_file 0 _ _ _
    (Checked.live_ofLexed (tokenize text)) _ _ ran
  obtain ⟨plan, stands, follows⟩ := after.sees
  have finished : Checked.finish after.parser.builder = some after.parser.builder.finish :=
    stands.finish_eq_some follows adds.frames
  rw [← same] at finished
  rw [parse_of_file ran, Checked.parse?, Checked.tokenize_eq, ← same]
  change (Checked.file _).bind _ = _
  rw [ran', Option.bind_some]
  dsimp only
  rw [finished]
  rfl

end StarlarkSyntax
