import StarlarkSyntax.Builder.Basic
import StarlarkSyntax.Grammar.Scope
/-!
# Parsers: what the rules of the grammar are made of

A rule of the grammar is a `ParseM`: it moves a builder over the tokens, and it knows the scope it
stands in and the blocks that are open. Rules that answer with a truth value say whether they found
what they look for; one that did not has usually passed no token, and its caller says what is
missing.

Rules are repeated by `loop` for as long as they say to go on, which may be forever: a rule that
never ends gives nothing at all, `none`. Every rule of the grammar that is repeated passes a token in
each round but the last, so none of them does that.

Nesting is counted: `nest` runs a rule one level deeper, and `skipTooDeep` is what happens instead
when the limit is reached.
-/

set_option autoImplicit false

namespace StarlarkSyntax

/-- How far the reading of a program has come. -/
structure Parser where
  builder : Builder
  scopes : Scopes := {}
  /-- How many indented blocks are open. -/
  blocks : Nat := 0
  /-- How many indents began no block. The dedents that match them are passed quietly, because the
  indents have been reported. -/
  strayIndents : Nat := 0
deriving Inhabited

/-- A rule of the grammar. It gives nothing if it never ends. -/
abbrev ParseM := StateT Parser Option

/-- Goes on with a rule after each round of it that says so, and answers with what the last round
left. -/
def ParseM.goOn {σ : Type} (rule : σ → ParseM (Bool × σ)) (round : ParseM (Bool × σ))
    (parser : Parser) : Option (σ × Parser) := do
  let ((again, state), next) ← round parser
  if again then rule state |>.goOn rule next else some (state, next)
partial_fixpoint

namespace Grammar

/-! ## Looking at tokens -/

/-- Looks at the builder. -/
def look {α : Type} (view : Builder → α) : ParseM α :=
  fun parser => some (view parser.builder, parser)

/-- The kind of the next token. -/
def current? : ParseM (Option Kind) := look Builder.current?

/-- Is the next token of the given kind? -/
def isAt (kind : Kind) : ParseM Bool := look (·.isAt kind)

/-- Is the next token of one of the given kinds? -/
def isAtAny (kinds : List Kind) : ParseM Bool := look (·.isAtAny kinds)

/-- Is the next token the given word? -/
def isAtWord (word : Reserved) : ParseM Bool := isAt (.reserved word)

/-- Is the next token the given operator? -/
def isAtOperator (symbol : Operator) : ParseM Bool := isAt (.operator symbol)

/-- Have all the tokens been passed? -/
def atEnd : ParseM Bool := look Builder.atEnd

/-! ## Moving the builder -/

/-- Changes the builder and answers with something. -/
def withBuilder {α : Type} (change : Builder → α × Builder) : ParseM α :=
  fun { builder, scopes, blocks, strayIndents } =>
    let (answer, builder) := change builder
    some (answer, { builder, scopes, blocks, strayIndents })

/-- Changes the builder. -/
def onBuilder (change : Builder → Builder) : ParseM Unit :=
  withBuilder fun builder => ((), change builder)

/-- Passes the next token. -/
def advance : ParseM Unit := onBuilder Builder.advance

/-- Passes the next token if it is of the given kind, and says whether it was. -/
def matches? (kind : Kind) : ParseM Bool := withBuilder (Builder.matches? kind)

/-- Passes the next token if it is of the given kind, or else says that something is missing. -/
def expect (kind : Kind) (message : String) : ParseM Bool :=
  withBuilder (Builder.expect kind message)

/-- Says that something is missing. -/
def missing (message : String) : ParseM Unit := onBuilder (Builder.missing message)

/-- Says that something is missing, unless a rule found it. -/
def require (message : String) (rule : ParseM Bool) : ParseM Unit := do
  if !(← rule) then missing message

/-- Puts the next token into an error node. -/
def advanceError (message : String) : ParseM Unit := onBuilder (Builder.advanceError message)

/-- Makes a marker. -/
def mark : ParseM Marker := withBuilder Builder.mark

/-- Makes a node of everything since the mark. -/
def done (marker : Marker) (kind : NodeKind) : ParseM Unit :=
  onBuilder fun builder => (builder.done marker kind).2

/-- Makes an error node of everything since the mark. -/
def fault (marker : Marker) (message : String) : ParseM Unit :=
  onBuilder fun builder => (builder.error marker message).2

/-- Makes a node of everything since the mark, and a marker around it. -/
def wrap (marker : Marker) (kind : NodeKind) : ParseM Marker :=
  withBuilder fun builder =>
    let (completed, builder) := builder.done marker kind
    builder.precede completed

/-- Forgets a marker. -/
def drop (marker : Marker) : ParseM Unit := onBuilder (Builder.drop marker)

/-- Takes back everything since the mark. -/
def rollback (marker : Marker) : ParseM Unit := onBuilder (Builder.rollback marker)

/-- Makes a node of just the next token. -/
def tokenNode (kind : NodeKind) : ParseM Unit := do
  let marker ← mark
  advance
  done marker kind

/-- Makes a node without children. -/
def emptyNode (kind : NodeKind) : ParseM Unit := do
  let marker ← mark
  done marker kind

/-! ## Scopes -/

/-- The scope that the next statement stands in. -/
def scope : ParseM Scope := fun parser => some (parser.scopes.current, parser)

/-- Changes the scopes. -/
def onScopes (change : Scopes → Scopes) : ParseM Unit :=
  fun { builder, scopes, blocks, strayIndents } =>
    some ((), { builder, scopes := change scopes, blocks, strayIndents })

/-- Notes whether the last statement ended with a semicolon. -/
def setAfterSemicolon (value : Bool) : ParseM Unit := onScopes (Scopes.setAfterSemicolon value)

/-- Follows a rule in a scope that is made from the current one. -/
def within (change : Scope → Scope) (rule : ParseM Unit) : ParseM Unit := do
  onScopes fun scopes => scopes.push (change scopes.current)
  rule
  onScopes Scopes.pop

/-! ## Repetition -/

/-- Follows a rule as long as it says to go on, and answers with what the last round left. -/
def loop {σ : Type} (rule : σ → ParseM (Bool × σ)) (state : σ) : ParseM σ :=
  ParseM.goOn rule (rule state)

theorem loop_eq {σ : Type} (rule : σ → ParseM (Bool × σ)) (state : σ) :
    loop rule state = (do
      let (again, state) ← rule state
      if again then loop rule state else pure state) := by
  funext parser
  rw [loop, ParseM.goOn]
  refine Option.bind_congr ?_
  rintro ⟨⟨again, state⟩, next⟩ -
  cases again <;> rfl

/-- Follows a rule as long as it says to go on. -/
def repeatWhile (rule : ParseM Bool) : ParseM Unit :=
  loop (fun _ => do pure (← rule, ())) ()

/-- Passes tokens until the text ends or a token of one of the given kinds comes, and says whether
there were any. -/
def skipUntil (stops : List Kind) : ParseM Bool :=
  loop (fun skipped => do
    if (← atEnd) || (← isAtAny stops) then pure (false, skipped)
    else
      advance
      pure (true, true)) false

/-! ## Nesting -/

/-- A rule that never ends. -/
def unending {α : Type} : ParseM α := fun _ => none

/-- What is said where the limit of nesting is reached. -/
def tooDeep : String := "expression nested too deeply"

/-- Passes a token, if the statement goes on, and counts the brackets that are open after it; says
whether there are any. -/
def skipRound (opened : Nat) : ParseM (Bool × Nat) := do
  match ← current? with
  | none | some .statementBreak => pure (false, opened)
  | some kind =>
    let opened := Layout.depthAfter opened kind
    advance
    pure (opened != 0, opened)

/-- Passes one token, or everything up to the bracket that closes it if it opens one, without going
deeper. The end of the statement ends that too. Answers `false` if nothing could be passed. -/
def skipTooDeep : ParseM Bool := do
  match ← current? with
  | none | some .statementBreak | some (.closing _) =>
    missing tooDeep
    pure false
  | some _ =>
    let junk ← mark
    let _ ← loop skipRound 0
    fault junk tooDeep
    pure true

/-- Follows a rule one level deeper, or passes over what it would read if that is too deep. -/
def nest (rule : ParseM Bool) : ParseM Bool := do
  if ← withBuilder Builder.enter then
    let found ← rule
    onBuilder Builder.exit
    pure found
  else
    skipTooDeep

end Grammar
end StarlarkSyntax
