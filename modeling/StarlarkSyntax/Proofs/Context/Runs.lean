import StarlarkSyntax.Proofs.Context.Rules
import StarlarkSyntax.Proofs.Progress.Rules
/-!
# Every run of a rule restores its context

All the rules of the grammar in one list, `Rule`: those that look for an expression or read a list of something,
those that go on after another one, and those for statements and their parts. Whatever the state that a rule is
followed from, however deep it may be nested and whichever way it takes, the context is in the end what it was, and
on the way the nesting is never deeper than is allowed (`Rule.restores_context`). Where a rule may be followed it
also comes to an end (`Rule.ends`).
-/

set_option autoImplicit false

namespace StarlarkSyntax.Grammar

open Restores (restored)

/-! ## All rules -/

/-- A rule that goes on after something that another rule has read, often from a marker around it. -/
inductive Continuation where
  /-- The elements of a list or a set after the first. -/
  | elements (target : Bool) (expression : Marker) (close : Kind) (kind : NodeKind)
  /-- A `for` of a comprehension with its conditions, and all of them with the bracket that closes it. -/
  | clause (kind : NodeKind)
  | comprehension (expression : Marker) (close? : Option Kind) (kind : NodeKind)
  /-- The entries of a dictionary after the first. -/
  | entries (expression : Marker)
  /-- A dictionary from the value of its first key on. -/
  | dictionary (expression pair : Marker)
  /-- A slice from the first colon on, from the end of its first item on, or after that. -/
  | sliceFromColon (item : Marker)
  | sliceRest (item : Marker)
  | sliceTail

namespace Continuation

/-- The rule, with as many levels of nested ones as are given. -/
def rule (nested : Nested) : Continuation → ParseM Unit
  | elements target expression close kind => Grammar.elements nested target expression close kind
  | clause kind => Grammar.clause nested kind
  | comprehension expression close? kind => Grammar.comprehension nested expression close? kind
  | entries expression => Grammar.entries nested expression
  | dictionary expression pair => Grammar.dictionary nested expression pair
  | sliceFromColon item => Grammar.sliceFromColon nested item
  | sliceRest item => Grammar.sliceRest nested item
  | sliceTail => Grammar.sliceTail nested

/-- The markers that the rule goes on from. -/
def markers : Continuation → List Marker
  | elements _ expression _ _ | comprehension expression _ _ | entries expression => [expression]
  | dictionary expression pair => [expression, pair]
  | sliceFromColon item | sliceRest item => [item]
  | clause _ | sliceTail => []

/-- The markers were made since some state that this one has come of, and a comprehension begins with its word. -/
def IsFollowed (parser : Parser) (continuation : Continuation) : Prop :=
  (∃ base, base.Since parser.builder.depth 0 parser ∧ ∀ marker ∈ continuation.markers, marker.Since base 0) ∧
    match continuation with
    | clause _ | comprehension .. => parser.builder.isAt (.reserved .forWord) = true
    | _ => True

end Continuation

/-- A rule for a statement or a part of one. -/
inductive Sentence where
  | any
  | simple
  /-- A statement of one word. -/
  | word (kind : NodeKind)
  | returning
  | load
  /-- A symbol to load, with or without another name for it. -/
  | loadValue
  | loadString
  /-- An expression that has to be there. -/
  | value
  /-- An expression or an assignment. -/
  | expression
  | assignment
  /-- The targets of an assignment. -/
  | targets
  | unexpected
  | ending
  | conditional
  | iteration
  | declaration
  | colonAndSuite
  /-- A suite on the line of its colon, and a statement of it. -/
  | inlineSuite
  | inlineStatement
  | file

namespace Sentence

/-- The rule, with at most so many levels of blocks in it. -/
def rule (levels : Nat) : Sentence → ParseM Unit
  | any => statementIn (blockFor levels)
  | simple => simpleStatement
  | word kind => wordStatement kind
  | returning => returnStatement
  | load => loadStatement
  | loadValue => Grammar.loadValue
  | loadString => Grammar.loadString
  | value => require expectedExpression Grammar.expression
  | expression => expressionStatement
  | assignment => Grammar.assignment
  | targets => targetExpression
  | unexpected => unexpectedToken
  | ending => endOfStatement
  | conditional => ifStatement (blockFor levels)
  | iteration => forStatement (blockFor levels)
  | declaration => functionDeclaration (blockFor levels)
  | colonAndSuite => Grammar.colonAndSuite (blockFor levels)
  | inlineSuite => Grammar.inlineSuite
  | inlineStatement => Grammar.inlineStatement
  | file => Grammar.file

/-- Some rules are only followed where there is a token, an expression, or nothing before. -/
def IsFollowed (parser : Parser) : Sentence → Prop
  | word _ | returning | load | expression | unexpected | conditional | iteration | declaration =>
    parser.builder.atEnd = false
  | assignment | targets =>
    ∃ kind, parser.builder.current? = some kind ∧ startsNested parser.builder.depth kind = true
  | file => parser.builder.depth = 0 ∧ parser.blocks = 0
  | _ => True

end Sentence

/-- A rule of the grammar, by what it answers. -/
inductive Rule : Type → Type
  | search (search : Search) : Rule Bool
  | listing (listing : Listing) : Rule Unit
  | continuation (continuation : Continuation) : Rule Unit
  | sentence (sentence : Sentence) : Rule Unit

namespace Rule

variable {α : Type}

/-- Follows the rule, with at most so many levels of nested rules and of blocks in it. -/
def run (levels : Nat) : Rule α → ParseM α
  | search part => part.rule (nestedFor levels)
  | listing part => part.rule levels
  | continuation part => part.rule (nestedFor levels)
  | sentence part => part.rule levels

/-- Is the rule ever followed here? -/
def IsFollowed (parser : Parser) : Rule α → Prop
  | search part => part.isFollowed parser.builder = true
  | listing part => part.isFollowed parser.builder = true
  | continuation part => part.IsFollowed parser
  | sentence part => part.IsFollowed parser

end Rule

/-! ## Every rule restores its context -/

section

variable {nested : Nested} [∀ rule, Restores (nested rule)]

instance (target : Bool) (tier : Tier) : Restores (tier.rule nested target) := by
  cases tier with
  | ladder level => cases level <;> exact inferInstanceAs (Restores (leftAssociative _ _ _))
  | negation | sign | power | primary =>
      unfold Tier.rule
      infer_instance

instance (search : Search) : Restores (search.rule nested) := by
  cases search with
  | lambda inRange =>
      have body : Restores (if inRange then nested.rangeItem else test nested false) := inferInstance
      exact inferInstanceAs (Restores (lambda nested _))
  | _ =>
      unfold Search.rule
      infer_instance

instance (continuation : Continuation) : Restores (continuation.rule nested) := by
  cases continuation <;> (unfold Continuation.rule; infer_instance)

end

instance (levels : Nat) (listing : Listing) : Restores (listing.rule levels) := by
  cases listing <;> (unfold Listing.rule; infer_instance)

instance (levels : Nat) (sentence : Sentence) : Restores (sentence.rule levels) := by
  cases sentence <;> (unfold Sentence.rule; infer_instance)

instance {α : Type} (levels : Nat) (rule : Rule α) : Restores (rule.run levels) := by
  cases rule <;> (unfold Rule.run; infer_instance)

/-! ## Where rules end -/

section

variable {parser : Parser} {levels : Nat}

theorem Continuation.ends (enough : Builder.maxDepth ≤ levels + parser.builder.depth) (continuation : Continuation)
    (here : continuation.IsFollowed parser) : Ends (continuation.rule (nestedFor levels)) parser fun _ _ => True := by
  have follows := follows_nestedFor levels enough
  obtain ⟨⟨base, since, made⟩, word⟩ := here
  cases continuation with
  | elements target expression close kind =>
      exact (ends_elements follows target close kind since (made _ (by simp [markers]))).mono fun _ _ _ => trivial
  | clause kind =>
      exact (passes_clause follows kind base 0 parser since (current?_of_isAt word)).mono fun _ _ _ => trivial
  | comprehension expression close? kind =>
      exact (ends_comprehension follows since (made _ (by simp [markers])) word).mono fun _ _ _ => trivial
  | entries expression =>
      exact (ends_entries follows since (made _ (by simp [markers]))).mono fun _ _ _ => trivial
  | dictionary expression pair =>
      exact (ends_dictionary follows since (made _ (by simp [markers])) (made _ (by simp [markers]))).mono
        fun _ _ _ => trivial
  | sliceFromColon item =>
      exact (ends_sliceFromColon follows since (made _ (by simp [markers]))).mono fun _ _ _ => trivial
  | sliceRest item =>
      exact (ends_sliceRest follows since (made _ (by simp [markers]))).mono fun _ _ _ => trivial
  | sliceTail => exact (keeps_sliceTail follows base 0 parser since).mono fun _ _ _ => trivial

theorem Sentence.ends (enough : Builder.maxDepth ≤ levels + parser.builder.depth)
    (wellFormed : parser.builder.WellFormed) (sentence : Sentence) (here : sentence.IsFollowed parser) :
    Ends (sentence.rule levels) parser fun _ _ => True := by
  have self : parser.Since parser.builder.depth 0 parser := ⟨wellFormed, rfl, rfl, rfl, Nat.zero_le _⟩
  have block := keeps_blockFor levels enough
  have keeps {rule : ParseM Unit} (keeps : Keeps parser.builder.depth rule) : Ends rule parser fun _ _ => True :=
    (keeps parser 0 parser self).mono fun _ _ _ => trivial
  have passes {rule : ParseM Unit} (passes : ∀ kind, Passes parser.builder.depth kind rule)
      (more : parser.builder.atEnd = false) : Ends rule parser fun _ _ => True := by
    obtain ⟨kind, seen⟩ := exists_current? more
    exact (passes kind parser 0 parser self seen).mono fun _ _ _ => trivial
  cases sentence with
  | any => exact (steps_statementIn block parser 0 parser self).mono fun _ _ _ => trivial
  | simple => exact keeps keeps_simpleStatement
  | word kind => exact passes (passes_wordStatement · kind) here
  | returning => exact passes passes_returnStatement here
  | load => exact passes passes_loadStatement here
  | loadValue => exact keeps keeps_loadValue
  | loadString => exact keeps keeps_loadString
  | value => exact keeps (keeps_require _ (leads_expression _).finds.keeps)
  | expression => exact passes passes_expressionStatement here
  | assignment =>
      obtain ⟨kind, seen, start⟩ := here
      exact (passes_assignment start parser 0 parser self seen).mono fun _ _ _ => trivial
  | targets =>
      obtain ⟨kind, seen, start⟩ := here
      exact (passes_targetExpression start parser 0 parser self seen).mono fun _ _ _ => trivial
  | unexpected => exact passes passes_unexpectedToken here
  | ending => exact keeps keeps_endOfStatement
  | conditional => exact passes (passes_ifStatement block) here
  | iteration => exact passes (passes_forStatement block) here
  | declaration => exact passes (passes_functionDeclaration block) here
  | colonAndSuite => exact keeps (keeps_colonAndSuite block)
  | inlineSuite => exact keeps keeps_inlineSuite
  | inlineStatement => exact keeps keeps_inlineStatement
  | file =>
      obtain ⟨shallow, outside⟩ := here
      exact (ends_file (shallow ▸ self) outside).mono fun _ _ _ => trivial

/-- A rule ends where it may be followed. -/
theorem Rule.ends {α : Type} (enough : Builder.maxDepth ≤ levels + parser.builder.depth)
    (wellFormed : parser.builder.WellFormed) (rule : Rule α) (here : rule.IsFollowed parser) :
    Ends (rule.run levels) parser fun _ _ => True := by
  have self : parser.Since parser.builder.depth parser.builder.cursor parser :=
    ⟨wellFormed, rfl, rfl, rfl, Nat.le_refl _⟩
  cases rule with
  | search search => exact (search.ends (follows_nestedFor levels enough) self here).mono fun _ _ _ => trivial
  | listing listing => exact (listing.ends enough self here).mono fun _ _ _ => trivial
  | continuation continuation => exact continuation.ends enough here
  | sentence sentence => exact sentence.ends enough wellFormed here

end

/-! ## The whole -/

/-- A rule comes to an end where it may be followed. And from any state at all, whatever comes of it: there are as
many levels, blocks and scopes as there were, the scopes around the current one are the same, and there is a trail
to that end; and on each trail the nesting is nowhere deeper than is allowed, or than it was. -/
theorem Rule.restores_context {α : Type} (rule : Rule α) (levels : Nat) (parser : Parser) :
    (rule.IsFollowed parser → parser.builder.WellFormed → Builder.maxDepth ≤ levels + parser.builder.depth →
      ∃ answer next, rule.run levels parser = some (answer, next)) ∧
    ∀ answer next, rule.run levels parser = some (answer, next) →
      next.builder.depth = parser.builder.depth ∧ next.blocks = parser.blocks ∧
      next.scopes.height = parser.scopes.height ∧ next.scopes.outer = parser.scopes.outer ∧
      (∃ states, Trail (rule.run levels) parser states answer next) ∧
      ∀ states, Trail (rule.run levels) parser states answer next →
        ∀ state ∈ states, state.builder.depth ≤ max parser.builder.depth Builder.maxDepth := by
  constructor
  · intro here wellFormed enough
    obtain ⟨answer, next, ran, -⟩ := rule.ends enough wellFormed here
    exact ⟨answer, next, ran⟩
  · intro answer next ran
    obtain ⟨followed, same⟩ := restored ran
    have outer : next.scopes.outer = parser.scopes.outer := congrArg Context.outer same
    refine ⟨congrArg Context.depth same, congrArg Context.blocks same, ?_, outer, followed,
      fun states trail => trail.depth_le⟩
    rw [Scopes.height, Scopes.height, outer]

/-- One level above the limit, in a function: two statements on the line of a colon, with a call in a call. -/
theorem Rule.restores_context_of_calls :
    let lexed := tokenize "f(g(x)); return\n".toList
    let parser : Parser :=
      { builder := { Builder.ofLexed lexed with depth := 127 }
        scopes := { current := { inFunction := true }, outer := [{}] }
        blocks := 1 }
    ∃ next, inlineSuite parser = some ((), next) ∧ next.builder.depth = 127 ∧ next.blocks = 1 ∧
      next.scopes.height = 2 ∧ next.scopes.outer = [{}] ∧
      ∃ states, Trail inlineSuite parser states () next ∧ ∀ state ∈ states, state.builder.depth ≤ 128 := by
  intro lexed parser
  have wellFormed : parser.builder.WellFormed := (Builder.since_ofLexed lexed).atDepth 127
  obtain ⟨ends, restores⟩ := Rule.restores_context (.sentence .inlineSuite) 1 parser
  obtain ⟨answer, next, ran⟩ := ends trivial wellFormed (by decide)
  obtain ⟨depth, blocks, height, outer, ⟨states, trail⟩, deep⟩ := restores answer next ran
  exact ⟨next, ran, depth, blocks, height, outer, states, trail, deep states trail⟩

end StarlarkSyntax.Grammar
