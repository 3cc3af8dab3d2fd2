import StarlarkSyntax.Proofs.Builder.Rollback
import StarlarkSyntax.Proofs.Print.Ladder
import StarlarkSyntax.Proofs.Progress.Statement
import StarlarkSyntax.Proofs.Total
/-!
# Every rule makes progress

What the rules of the grammar have in common when they are followed from any state at all, at any depth of
nesting. A statement passes a token, unless the next one is the dedent that ends a block, which is left with
everything else as it was. A rule that looks for an expression, or for a part of one, passes a token if it
says that it found something; those rules are listed as `Search`. And the rules that repeat others end; they
are listed as `Listing`. All of it is said by `progress`, and comes from what the modules before this one say
of each rule by itself.

Some rules are followed only where a certain token comes, which they pass without looking at it again
(`Search.isFollowed`, `Listing.isFollowed`).
-/

set_option autoImplicit false

namespace StarlarkSyntax.Grammar

/-! ## What may be looked for -/

/-- A rule that says whether it found an expression, or a part of one. -/
inductive Search where
  /-- Expressions separated by commas. -/
  | tuple (target : Bool)
  /-- What a comprehension ranges over. -/
  | range
  | conditional (target : Bool)
  /-- An item of a range. -/
  | rangeItem
  /-- A condition of a comprehension. -/
  | condition
  /-- A lambda, whose body may be an item of a range. -/
  | lambda (inRange : Bool)
  /-- An operand of some level. -/
  | operand (tier : Tier) (target : Bool)
  | starExpression (target : Bool)
  | doubleStar
  | primary (target : Bool)
  | keyValue
  | argument (first : Bool)
  | parameter (stop : Kind)
  /-- One of the rules that are followed one level deeper. -/
  | production (rule : Production)
  /-- What is passed instead where the limit of nesting is reached. -/
  | tooDeep
deriving Inhabited

/-- The rule, with as many levels of nested ones as are given. -/
def Search.rule (nested : Nested) : Search → ParseM Bool
  | tuple target => Grammar.tuple nested target
  | range => tupleOf nested.rangeItem
  | conditional target => Grammar.conditional nested target
  | rangeItem => nested.rangeItem
  | condition => Grammar.condition nested
  | lambda inRange => Grammar.lambda nested (if inRange then nested.rangeItem else test nested false)
  | operand tier target => tier.rule nested target
  | starExpression target => Grammar.starExpression nested target
  | doubleStar => Grammar.doubleStar nested
  | primary target => Grammar.primary nested target
  | keyValue => Grammar.keyValue nested
  | argument first => Grammar.argument nested first
  | parameter stop => Grammar.parameter nested stop
  | production rule => nested rule
  | tooDeep => skipTooDeep

/-- Is the rule ever followed here? Some rules pass a certain token without looking at it again. -/
def Search.isFollowed (builder : Builder) : Search → Bool
  | lambda _ => builder.isAt (.reserved .lambdaWord)
  | production (.display delimiter _) => builder.isAt (.opening delimiter)
  | production .arguments => builder.isAt lpar
  | production (.negation _) => builder.isAt (.reserved .notWord)
  | production (.signed _) => builder.isAtAny signs
  | _ => true

/-- A rule that reads a list of something, or repeats something else. -/
inductive Listing where
  /-- The statements of a block. -/
  | block
  | suite
  | display (delimiter : Delimiter) (target : Bool)
  | arguments
  | parameters (stop : Kind)
  | parameterList
  | slice
  | subscript
  /-- What a `load` has in its parentheses. -/
  | load
  /-- The targets of a `for`. -/
  | targets
deriving Inhabited

/-- The rule, with as many levels of nested ones as are given. -/
def Listing.rule (levels : Nat) : Listing → ParseM Unit
  | block => blockFor levels
  | suite => Grammar.suite (blockFor levels)
  | display delimiter target => Grammar.display (nestedFor levels) delimiter target
  | arguments => Grammar.arguments (nestedFor levels)
  | parameters stop => Grammar.parameters (nestedFor levels) stop
  | parameterList => Grammar.parameterList (nestedFor levels)
  | slice => Grammar.slice (nestedFor levels)
  | subscript => do
    let _ ← Grammar.subscript (nestedFor levels)
  | load => loadValues
  | targets => Grammar.targets (nestedFor levels)

/-- Is the rule ever followed here? -/
def Listing.isFollowed (builder : Builder) : Listing → Bool
  | display delimiter _ => builder.isAt (.opening delimiter)
  | arguments => builder.isAt lpar
  | _ => true

section

variable {nested : Nested} {depth : Nat}

/-! ## Expressions -/

/-- The operands of every level are found by their first token. -/
theorem exists_leads_operand (follows : Follows nested depth) (target : Bool) (tier : Tier) :
    ∃ starts, Leads depth starts (tier.rule nested target) :=
  match tier with
  | .primary => ⟨_, leads_member follows target⟩
  | .power => ⟨_, leads_power follows target⟩
  | .sign => ⟨_, leads_unary follows target⟩
  | .negation => ⟨_, leads_negation follows target⟩
  | .ladder level => by
    have ⟨_, right⟩ := exists_leads_operand follows target (Tier.ladder level).tighter
    have ⟨_, left⟩ : ∃ starts, Leads depth starts (level.leftRule nested target) := by
      cases level with
      | comparison => exact ⟨_, leads_starExpression follows target⟩
      | _ => exact ⟨_, right⟩
    rw [Tier.rule_ladder]
    exact ⟨_, leads_leftAssociative level left right.finds.keeps⟩
termination_by Tier.primary.rank - tier.rank
decreasing_by
  have := Tier.rank_tighter (.ladder level) nofun
  have := Tier.rank_le (Tier.ladder level).tighter
  omega

/-- The rule passes a token if it is followed where it should be and says that it found something. -/
theorem Search.ends (follows : Follows nested depth) (search : Search) {parser : Parser}
    (self : parser.Since depth parser.builder.cursor parser) (here : search.isFollowed parser.builder = true) :
    Ends (search.rule nested) parser fun found next =>
      parser.Since depth (parser.builder.cursor + found.toNat) next := by
  have passes {kind : Kind} {rule : ParseM Bool} (passes : Passes depth kind rule)
      (isAt : parser.builder.isAt kind = true) : Ends rule parser fun found next =>
        parser.Since depth (parser.builder.cursor + found.toNat) next :=
    (passes parser _ parser self (current?_of_isAt isAt)).mono fun found _ since => since.found found
  have finds {rule : ParseM Bool} (finds : Finds depth rule) := finds parser _ parser self
  cases search with
  | tuple target => exact finds (leads_tuple follows target).finds
  | range => exact finds (leads_tupleOf (leads_rangeItem follows)).finds
  | conditional target => exact finds (leads_conditional follows target).finds
  | rangeItem => exact finds (leads_rangeItem follows).finds
  | condition => exact finds (leads_condition follows).finds
  | lambda inRange =>
      refine passes (passes_lambda follows ?_) here
      cases inRange with
      | false => exact (follows.test false).finds.keeps
      | true => exact keeps_rangeItem follows
  | operand tier target =>
      obtain ⟨starts, leads⟩ := exists_leads_operand follows target tier
      exact finds leads.finds
  | starExpression target => exact finds (leads_starExpression follows target).finds
  | doubleStar => exact finds (finds_doubleStar follows)
  | primary target =>
      exact finds (Leads.finds ⟨fun _ => passes_primary follows target, misses_primary target⟩)
  | keyValue => exact finds (finds_keyValue follows)
  | argument first => exact finds (finds_argument follows first)
  | parameter stop => exact finds (finds_parameter follows stop)
  | production rule =>
      cases rule with
      | test target => exact finds (follows.test target).finds
      | display delimiter target => exact passes (follows.display delimiter target) here
      | arguments => exact passes follows.arguments here
      | negation target => exact passes (follows.negation target) here
      | signed target =>
          obtain ⟨sign, mem, seen⟩ := current?_of_isAtAny here
          exact (follows.signed target sign mem parser _ parser self seen).mono
            fun found _ since => since.found found
      | exponent target => exact finds (follows.exponent target)
  | tooDeep => exact finds leads_skipTooDeep.finds

/-! ## Lists -/

theorem Listing.ends {levels : Nat} (enough : Builder.maxDepth ≤ levels + depth) (listing : Listing)
    {parser : Parser} (self : parser.Since depth parser.builder.cursor parser)
    (here : listing.isFollowed parser.builder = true) :
    Ends (listing.rule levels) parser fun _ next => parser.Since depth parser.builder.cursor next := by
  have follows := follows_nestedFor levels enough
  have passes {kind : Kind} {rule : ParseM Unit} (passes : Passes depth kind rule)
      (isAt : parser.builder.isAt kind = true) :
      Ends rule parser fun _ next => parser.Since depth parser.builder.cursor next :=
    (passes parser _ parser self (current?_of_isAt isAt)).mono fun _ _ since => since.lower
  have keeps {rule : ParseM Unit} (keeps : Keeps depth rule) := keeps parser _ parser self
  cases listing with
  | block => exact keeps (keeps_blockFor levels enough)
  | suite => exact keeps (keeps_suite (keeps_blockFor levels enough))
  | display delimiter target => exact passes (passes_display follows delimiter target) here
  | arguments => exact passes (passes_arguments follows) here
  | parameters stop => exact keeps (keeps_parameters follows stop)
  | parameterList => exact keeps (keeps_parameterList follows)
  | slice => exact keeps (keeps_slice follows)
  | subscript => exact keeps ((keeps_subscript follows).seq fun _ => .pure ())
  | load => exact keeps keeps_loadValues
  | targets => exact keeps (keeps_targets follows)

end

/-! ## Statements -/

/-- The next token is the dedent that ends the innermost block. -/
def AtBlockEnd (parser : Parser) : Prop :=
  parser.builder.current? = some .dedent ∧ parser.strayIndents = 0 ∧ 0 < parser.blocks

theorem ready_of_not_atBlockEnd {parser : Parser} (away : ¬ AtBlockEnd parser) : Ready parser := by
  intro seen
  by_contra neither
  refine away ⟨seen, ?_, ?_⟩ <;> omega

/-- The dedent that ends a block is left where it is. -/
theorem ends_statementIn_of_atBlockEnd (block : ParseM Unit) {parser : Parser} (ended : AtBlockEnd parser) :
    Ends (statementIn block) parser fun _ next =>
      next = { parser with scopes := parser.scopes.setAfterSemicolon false } := by
  obtain ⟨seen, noStray, inBlock⟩ := ended
  have isAt : parser.builder.isAt .statementBreak = false := by
    rw [Builder.isAt, seen]
    rfl
  refine (ends_statementBreaks_of_none isAt).bind fun _ next same => ?_
  subst next
  have noted : Ends (setAfterSemicolon false) parser fun _ next =>
      next = { parser with scopes := parser.scopes.setAfterSemicolon false } := ⟨(), _, rfl, rfl⟩
  refine ends_scope (noted.bind ?_)
  rintro _ _ rfl
  refine ends_look ?_
  rw [seen]
  refine ends_strayIndents ?_
  rw [if_neg (Nat.not_lt.2 (Nat.le_of_eq noStray))]
  refine ends_blocks ?_
  rw [if_neg (Nat.ne_of_gt inBlock)]
  exact .pure rfl

/-! ## Every rule -/

/-- From every state, at every depth of nesting: a statement passes a token, if there is one, or leaves the
dedent that ends a block with everything else as it was; a rule that looks for an expression ends, and has
passed a token if it says that it found something; lists end, and so does a whole file. -/
theorem progress {parser : Parser} (wellFormed : parser.builder.WellFormed) {levels : Nat}
    (enough : Builder.maxDepth ≤ levels + parser.builder.depth) :
    (parser.builder.atEnd = false → ∃ next, statementIn (blockFor levels) parser = some ((), next) ∧
      (AtBlockEnd parser → next = { parser with scopes := parser.scopes.setAfterSemicolon false }) ∧
      (¬ AtBlockEnd parser → parser.builder.cursor < next.builder.cursor)) ∧
    (∀ search : Search, search.isFollowed parser.builder = true →
      ∃ found next, search.rule (nestedFor levels) parser = some (found, next) ∧
        (found = true → parser.builder.cursor < next.builder.cursor)) ∧
    (∀ listing : Listing, listing.isFollowed parser.builder = true →
      ∃ next, listing.rule levels parser = some ((), next)) ∧
    (parser.builder.depth = 0 → parser.blocks = 0 → ∃ next, file parser = some ((), next)) := by
  have self : parser.Since parser.builder.depth parser.builder.cursor parser :=
    ⟨wellFormed, rfl, rfl, rfl, Nat.le_refl _⟩
  refine ⟨fun more => ?_, fun search here => ?_, fun listing here => ?_, fun shallow outside => ?_⟩
  · obtain ⟨kind, seen⟩ := exists_current? more
    by_cases ended : AtBlockEnd parser
    · obtain ⟨_, next, run, left⟩ := ends_statementIn_of_atBlockEnd (blockFor levels) ended
      exact ⟨next, run, fun _ => left, absurd ended⟩
    · obtain ⟨_, next, run, -, passed⟩ := steps_statementIn (keeps_blockFor levels enough) parser _ parser self
      exact ⟨next, run, fun atEnd => absurd atEnd ended,
        fun _ => (passed kind seen (ready_of_not_atBlockEnd ended)).reached⟩
  · obtain ⟨found, next, run, since⟩ := search.ends (follows_nestedFor levels enough) self here
    refine ⟨found, next, run, ?_⟩
    rintro rfl
    exact since.reached
  · obtain ⟨_, next, run, -⟩ := listing.ends enough self here
    exact ⟨next, run⟩
  · obtain ⟨_, next, run, -⟩ := ends_file (shallow ▸ self) outside
    exact ⟨next, run⟩

/-- At the limit of nesting, in a block, before a call. -/
theorem progress_of_deep :
    let lexed := tokenize "f(x)\n".toList
    let parser : Parser := { builder := { Builder.ofLexed lexed with depth := Builder.maxDepth }, blocks := 1 }
    (∃ next, statementIn (blockFor 0) parser = some ((), next) ∧ 0 < next.builder.cursor) ∧
      (∃ found next, (Search.tuple true).rule (nestedFor 0) parser = some (found, next) ∧
        (found = true → 0 < next.builder.cursor)) ∧
      ∃ next, Listing.block.rule 0 parser = some ((), next) := by
  intro lexed parser
  have wellFormed : parser.builder.WellFormed := (Builder.since_ofLexed lexed).atDepth Builder.maxDepth
  obtain ⟨statement, search, listing, -⟩ := progress wellFormed (Nat.le_add_left _ 0)
  have seen : parser.builder.current? = some .identifier := by decide +kernel
  obtain ⟨next, run, -, moved⟩ := statement (by decide +kernel)
  exact ⟨⟨next, run, moved fun ended => by cases seen.symm.trans ended.1⟩, search _ rfl, listing _ rfl⟩

end StarlarkSyntax.Grammar
