import StarlarkSyntax.Parse
import StarlarkSyntax.Proofs.Builder.Leaves
import StarlarkSyntax.Proofs.Layout.Text
import StarlarkSyntax.Proofs.Progress.Statement
/-!
# Every text is parsed, and nothing of it is lost

The grammar ends on every sequence of tokens (`ends_file`), a tree has all the tokens of its builder
for leaves (`leaves_finish`), and the tokens of a text have the text for theirs (`textOf_tokenize`).
Together: whatever the text, `parse` reads all of it into the tree of a file.
-/

set_option autoImplicit false

namespace StarlarkSyntax

namespace Builder

/-- Nothing has been described at the start of a text. -/
theorem since_ofLexed (lexed : Lexed) : (ofLexed lexed).Since (ofLexed lexed) where
  tokens := rfl
  significant := rfl
  messages := rfl
  depth := rfl
  inside := Nat.zero_le _
  size := Nat.le_refl _
  events := fun _ _ => rfl
  links := ⟨[], rfl, by simp⟩
  forward := by simp [ofLexed]
  recorded := by simp [ofLexed]
  sorted := .nil
  bounded := by simp [ofLexed]
  older := by simp [ofLexed]

/-- What is described between the beginning and the end of a file stays in it. -/
theorem kind?_finish_complete {marked builder : Builder} (since : marked.Since builder)
    (first : marked.events[0]? = some (.start .unresolved none)) :
    (builder.complete 0 (.node .file)).finish.kind? = some .file := by
  have inside : 0 < marked.events.size := (Array.getElem?_eq_some_iff.1 first).1
  refine kind?_finish ?_
  have kept := (since.events 0 inside).trans first
  have size := since.size
  simp only [complete]
  rw [Array.getElem?_push, Array.size_modify, if_neg (by omega), Array.getElem?_modify, if_pos rfl,
    kept]
  rfl

end Builder

/-- Every text is parsed: the root of its tree is a file, the leaves are the tokens of the text in
their order, and the text can be had back from the tree. -/
theorem parse_total (text : List Char) :
    parse? text = some (parse text) ∧ (parse text).root.kind? = some .file ∧
      (parse text).root.leaves = (tokenize text).tokens ∧ (parse text).root.text = text := by
  let start : Parser := { builder := .ofLexed (tokenize text) }
  have self : start.Since 0 0 start :=
    ⟨Builder.since_ofLexed _, rfl, rfl, rfl, Nat.le_refl _⟩
  obtain ⟨_, next, run, builder, since, final⟩ := Grammar.ends_file self rfl
  have parsed : parse? text =
      some { root := next.builder.finish, tokens := (tokenize text).tokens } := by
    simp only [parse?, StateT.run]
    rw [run]
    rfl
  have eq : parse text = { root := next.builder.finish, tokens := (tokenize text).tokens } := by
    rw [parse, parsed]
    rfl
  have leaves : next.builder.finish.leaves = (tokenize text).tokens := by
    rw [Builder.leaves_finish, final]
    exact since.tokens
  rw [parsed, eq]
  refine ⟨rfl, ?_, leaves, ?_⟩
  · change next.builder.finish.kind? = _
    rw [final]
    exact Builder.kind?_finish_complete since rfl
  · change Token.textOf next.builder.finish.leaves = text
    rw [leaves, textOf_tokenize]

end StarlarkSyntax
