import Mathlib
import StarlarkSyntax.Proofs.Grammar.Outline
import StarlarkSyntax.Proofs.Trivia.Layout
import StarlarkSyntax.Proofs.Twin.Root
/-!
# Trees do not depend on trivia

The outline of a tree is made of its shape (`Tree.outline_eq`), and the shape of the pieces and messages of the
text. Both are the same with a line without code between lines, and with white space and comments between two
tokens inside brackets (`outline_insert`), if the tokens of the text are still read. They are because the text
goes on after all of them but the last one, and the last one either goes on with the white space that is put
there, or is ended by it.
-/

set_option autoImplicit false

namespace StarlarkSyntax

open Layout (lineByLine isCode openBrackets)

/-! ## Texts with the same code -/

/-- What is said about some tokens. -/
def said (contents : List Content) : List String := contents.filterMap (·.2.map LexicalFault.message)

theorem said_trivia {trivia : List Content} (passed : Trivial trivia) : said trivia = [] := by
  refine List.filterMap_eq_nil_iff.2 fun content mem => ?_
  rw [(passed content mem).2]
  rfl

theorem outline_congr {text text' : List Char}
    (pieces : lineByLine ((contents text).map bareToken) = lineByLine ((contents text').map bareToken))
    (messages : said (contents text) = said (contents text')) :
    (parse text).root.outline = (parse text').root.outline := by
  have same : (tokenize text).stock = (tokenize text').stock := by
    rw [Lexed.stock, Lexed.stock, pieces_contents, pieces_contents, pieces]
    congr 1
    exact (messages_eq text).trans (messages.trans (messages_eq text').symm)
  rw [Tree.outline_eq, Tree.outline_eq, shape_congr same]

theorem outline_of_inside {text text' : List Char} {before trivia trivia' after : List Content}
    (inside : 0 < openBrackets (before.map bareToken)) (passed : Trivial trivia) (passed' : Trivial trivia')
    (read : contents text = before ++ (trivia ++ after))
    (read' : contents text' = before ++ (trivia' ++ after)) :
    (parse text).root.outline = (parse text').root.outline := by
  refine outline_congr ?_ ?_
  · rw [read, read']
    simp only [List.map_append]
    exact Layout.lineByLine_trivia inside (isCode_bareToken passed) (isCode_bareToken passed') _
  · have none := said_trivia passed
    have none' := said_trivia passed'
    rw [said] at none none'
    simp only [said, read, read', List.filterMap_append, none, none']

theorem outline_of_line {text text' : List Char} {before trivia after : List Content}
    (last : ∀ content ∈ before.getLast?, content.1.1 = .lineBreak)
    (closed : openBrackets (before.map bareToken) = 0) (passed : Trivial trivia)
    (inLine : ∀ content ∈ trivia, content.1.1 ≠ .lineBreak) (some : text ≠ [])
    (read : contents text = before ++ after)
    (read' : contents text' = before ++ (trivia ++ ((.lineBreak, ['\n']), none) :: after)) :
    (parse text').root.outline = (parse text).root.outline := by
  refine outline_congr ?_ ?_
  · have notEmpty : before.map bareToken ++ after.map bareToken ≠ [] := by
      rw [← List.map_append, ← read]
      exact fun nothing => contents_ne_nil some (List.map_eq_nil_iff.1 nothing)
    have last' : ∀ token ∈ (before.map bareToken).getLast?, token.kind = .lineBreak := by
      rw [List.getLast?_map]
      intro token mem
      obtain ⟨content, is, rfl⟩ := Option.map_eq_some_iff.1 mem
      exact last content is
    have inLine' : ∀ token ∈ trivia.map bareToken, token.kind ≠ .lineBreak := List.forall_mem_map.2 inLine
    rw [read, read']
    simp only [List.map_append, List.map_cons]
    exact Layout.lineByLine_line last' closed (isCode_bareToken passed) inLine' rfl notEmpty
  · have none := said_trivia passed
    rw [said] at none
    simp [said, read, read', List.filterMap_append, none]

/-! ## Insignificant text -/

/-- Text that makes no difference behind some tokens: lines without code where a line begins, and what fills
the space between tokens inside brackets. A comment would go on in it, and so might what is invalid, such as a
backslash that a carriage return comes after. -/
inductive Insignificant (before : List Token) : List Char → Prop
  | line {filler : List Char} : openBrackets before = 0 →
      (∀ last ∈ before.getLast?, last.kind = .lineBreak) → BareLine filler → Insignificant before filler
  | inside {filler : List Char} : 0 < openBrackets before →
      (∀ last ∈ before.getLast?, last.kind ≠ .invalid ∧ last.kind ≠ .comment) → Filler filler →
      ¬(['\\', '\r'] <:+ Token.textOf before ∧ filler.head? = some '\n') → Insignificant before filler

/-- Some tokens of a text, and the texts before and after the place where they end. -/
theorem exists_stretch {text : List Char} {before after : List Token}
    (read : (Cursor.ofText text).read = before ++ after) : ∃ taken : List Content,
      taken.map Prod.fst = before.map Token.piece ∧ text = Token.textOf before ++ Token.textOf after ∧
      Stretch (Token.textOf after) (Token.textOf before) taken := by
  obtain ⟨first, second, split, rfl, rfl⟩ := List.map_eq_append_iff.1 read
  have whole : contents text = first.map Scanned.content ++ second.map Scanned.content := by
    rw [contents, split, List.map_append]
  obtain ⟨start, rest, rfl, stretch, left⟩ := Stretch.exists_of_contents whole
  have bodies (tokens : List Scanned) :
      (tokens.map Scanned.content).flatMap (·.1.2) = Token.textOf (tokens.map Scanned.token) := by
    rw [Token.textOf, List.flatMap_map, List.flatMap_map]
    rfl
  have before' := bodies first ▸ stretch.bodies
  have after' := bodies second ▸ left ▸ (stretch_contents rest).bodies
  refine ⟨first.map Scanned.content, by rw [List.map_map, List.map_map]; rfl, ?_, ?_⟩
  · rw [before', after']
  · rwa [before', after']

theorem openBrackets_congr {tokens tokens' : List Token}
    (same : tokens.map Token.piece = tokens'.map Token.piece) : openBrackets tokens = openBrackets tokens' := by
  have of_pieces (tokens : List Token) : openBrackets tokens =
      (tokens.map Token.piece).foldl (fun depth piece => Layout.depthAfter depth piece.1) 0 := by
    rw [List.foldl_map]
    rfl
  rw [of_pieces, of_pieces, same]

/-- White space and comments inside brackets, when the text before them ends with a token. -/
theorem outline_insert_inside {rest text filler : List Char} {taken : List Content} {last : Content}
    (stretch : Stretch rest text (taken ++ [last])) (fills : Filler filler)
    (inside : 0 < openBrackets ((taken ++ [last]).map bareToken))
    (ends : last.1.1 ≠ .invalid ∧ last.1.1 ≠ .comment)
    (joined : ¬(['\\', '\r'] <:+ text ∧ filler.head? = some '\n')) :
    (parse (text ++ filler ++ rest)).root.outline = (parse (text ++ rest)).root.outline := by
  by_cases nothing : filler = []
  · rw [nothing, List.append_nil]
  by_cases space : last.1.1 = .space
  · -- The white space goes on with what is put behind it.
    have first := stretch.split
    have parts := stretch.bodies
    rw [List.flatMap_append, List.flatMap_singleton] at parts
    rw [List.flatMap_singleton] at first
    have gap : Language.Space last.1.2 := by
      have lexical := stretch.lexical last List.mem_concat_self ends.1
      rw [space] at lexical
      cases lexical
      assumption
    have goesOn : last.1.2 ≠ [] := (Lexical.space gap).ne_nil
    have changed : Stretch (last.1.2 ++ (filler ++ rest)) (taken.flatMap (·.1.2)) taken := by
      refine first.inside goesOn fun backslash carriage feed => joined ⟨?_, ?_⟩
      · obtain ⟨start, is⟩ := backslash
        exact ⟨start, by rw [← parts, ← is, carriage, List.append_assoc]; rfl⟩
      · rwa [List.head?_append_of_ne_nil _ nothing] at feed
    have open' : 0 < openBrackets (taken.map bareToken) := by
      have unchanged : openBrackets ((taken ++ [last]).map bareToken) = openBrackets (taken.map bareToken) := by
        rw [List.map_append, openBrackets, List.foldl_append]
        exact Layout.depthAfter_of_trivia (by rw [isCode, bareToken, space]; rfl) _
      rwa [← unchanged]
    obtain ⟨trivia, passed, read⟩ := Filler.nil.contents_after gap rest
    obtain ⟨trivia', passed', read'⟩ := fills.contents_after gap rest
    have old : contents (text ++ rest) = taken ++ contents (last.1.2 ++ rest) := by
      rw [← parts, List.append_assoc, first.contents]
    have new : contents (text ++ filler ++ rest) = taken ++ contents (last.1.2 ++ (filler ++ rest)) := by
      rw [← parts, List.append_assoc, List.append_assoc, changed.contents]
    rw [read'] at new
    rw [← List.nil_append rest, read, List.nil_append] at old
    exact outline_of_inside open' passed' passed new old
  · have changed : Stretch (filler ++ rest) text (taken ++ [last]) := by
      refine stretch.change fun other mem => .inr ⟨fills.isBreak nothing rest, ?_⟩
      rw [List.getLast?_concat] at mem
      obtain rfl := Option.some.inj mem
      simp [space, ends.1, ends.2]
    obtain ⟨trivia, passed, read⟩ := exists_skip rest
    obtain ⟨trivia', passed', read'⟩ := fills.contents rest
    have old := stretch.contents
    have new := changed.contents
    rw [read] at old
    rw [read', ← List.append_assoc text] at new
    exact outline_of_inside inside passed' passed new old

/-- Blank lines and comments never change the outline of a tree, nor does any white space inside brackets. -/
theorem outline_insert {text filler : List Char} {before after : List Token} (some : text ≠ [])
    (read : (Cursor.ofText text).read = before ++ after) (insignificant : Insignificant before filler) :
    (parse (Token.textOf before ++ filler ++ Token.textOf after)).root.outline =
      (parse text).root.outline := by
  obtain ⟨taken, pieces, whole, stretch⟩ := exists_stretch read
  have bare : (taken.map bareToken).map Token.piece = before.map Token.piece := by
    rw [← pieces, List.map_map]
    rfl
  have kinds : taken.getLast?.map (·.1.1) = before.getLast?.map Token.kind := by
    have same := congrArg (List.map Prod.fst) pieces
    rw [List.map_map, List.map_map] at same
    rw [← List.getLast?_map, ← List.getLast?_map]
    exact congrArg List.getLast? same
  have ends (content : Content) (is : content ∈ taken.getLast?) :
      ∃ token ∈ before.getLast?, token.kind = content.1.1 := by
    rw [is] at kinds
    exact Option.map_eq_some_iff.1 kinds.symm
  cases insignificant with
  | line closed last line =>
      have lineBreak : ∀ content ∈ taken.getLast?, content.1.1 = .lineBreak := by
        intro content is
        obtain ⟨token, mem, kind⟩ := ends content is
        exact kind ▸ last token mem
      have changed : Stretch (filler ++ Token.textOf after) (Token.textOf before) taken :=
        stretch.change fun content mem => .inl (lineBreak content mem)
      obtain ⟨trivia, passed, inLine, read'⟩ := line.contents (Token.textOf after)
      have new := changed.contents
      rw [read', ← List.append_assoc] at new
      exact outline_of_line lineBreak ((openBrackets_congr bare).trans closed) passed inLine some
        (whole ▸ stretch.contents) new
  | inside inside last fills joined =>
      rcases List.eq_nil_or_concat' taken with rfl | ⟨taken, content, rfl⟩
      · rw [openBrackets_congr bare.symm] at inside
        cases inside
      · obtain ⟨token, mem, kind⟩ := ends content (List.getLast?_concat ..)
        rw [whole]
        exact outline_insert_inside stretch fills (openBrackets_congr bare ▸ inside) (kind ▸ last token mem) joined

theorem insignificant_comment :
    Insignificant ((Cursor.ofText "(a)".toList).read.take 1) "#\n ".toList := by
  have brackets : openBrackets ((Cursor.ofText "(a)".toList).read.take 1) = 1 := by decide +kernel
  have last : ((Cursor.ofText "(a)".toList).read.take 1).getLast?.map Token.kind =
      some (.opening .parenthesis) := by decide +kernel
  have text : Token.textOf ((Cursor.ofText "(a)".toList).read.take 1) = ['('] := by decide +kernel
  refine .inside (Nat.lt_of_lt_of_eq Nat.one_pos brackets.symm) (fun token is => ?_)
    (.comment List.not_mem_nil (.blank rfl .nil)) ?_
  · rw [is] at last
    rw [Option.some.inj last]
    decide
  · rw [text]
    decide

theorem outline_insert_of_comment :
    let text := "(a)".toList
    let before := (Cursor.ofText text).read.take 1
    let after := (Cursor.ofText text).read.drop 1
    text ≠ [] ∧ (Cursor.ofText text).read = before ++ after ∧ Insignificant before "#\n ".toList ∧
      (parse (Token.textOf before ++ "#\n ".toList ++ Token.textOf after)).root.outline =
        (parse text).root.outline :=
  ⟨by decide, (List.take_append_drop 1 _).symm, insignificant_comment,
    outline_insert (by decide) (List.take_append_drop 1 _).symm insignificant_comment⟩

/-! ## A backslash before a carriage return -/

/-- The parse of a text with its messages written out. -/
theorem parse_of_messages {text : List Char} {said : List String} (is : messages text = said) :
    parse text = ((do
      let tokens := (tokenize text).tokens
      let significant := (tokens.filter (·.kind.isSignificant)).toArray
      let (_, parser) ← Grammar.file.run { builder := { tokens, significant, messages := said } }
      pure { root := parser.builder.finish, tokens }) : Option Parse).getD default := by
  subst is
  rfl

/-- What is in a pair of parentheses, in the tree of a text that has nothing else. -/
def parenthesized (inside : List Shape) : List Shape :=
  [.node .file none [.node .expressionStatement none
    [.node .tupleExpression none
      (.token (.opening .parenthesis, ['(']) :: (inside ++ [.token (.closing .parenthesis, [')'])])),
      .token (.statementBreak, [])]]]

theorem messages_backslash : messages "(\\\r)".toList = ["no token can start with '\\'"] := by
  decide +kernel

set_option maxRecDepth 10000 in
theorem shape_backslash : (parse "(\\\r)".toList).root.shape =
    parenthesized [.node .error (some "no token can start with '\\'") [.token (.invalid, ['\\'])]] := by
  rw [parse_of_messages messages_backslash]
  cbv

set_option maxRecDepth 10000 in
theorem shape_joined : (parse "(\\\r\n)".toList).root.shape = parenthesized [] := by
  cbv

/-- A line feed behind them makes white space of a backslash and a carriage return, which are an error
otherwise. -/
theorem outline_insert_joined :
    let text := "(\\\r)".toList
    let before := (Cursor.ofText text).read.take 3
    let after := (Cursor.ofText text).read.drop 3
    (Cursor.ofText text).read = before ++ after ∧ openBrackets before = 1 ∧
      before.getLast?.map Token.kind = some .space ∧ after.head?.map Token.kind = some (.closing .parenthesis) ∧
      (parse (Token.textOf before ++ ['\n'] ++ Token.textOf after)).root.outline ≠
        (parse text).root.outline := by
  have inserted : Token.textOf ((Cursor.ofText "(\\\r)".toList).read.take 3) ++ ['\n'] ++
      Token.textOf ((Cursor.ofText "(\\\r)".toList).read.drop 3) = "(\\\r\n)".toList := by decide +kernel
  refine ⟨(List.take_append_drop 3 _).symm, by decide +kernel, by decide +kernel, by decide +kernel, ?_⟩
  rw [inserted, Tree.outline_eq, Tree.outline_eq, shape_backslash, shape_joined]
  decide +kernel

end StarlarkSyntax
