import StarlarkSyntax.Grammar.Parser
/-!
# Rules with their assertions

The rules of the grammar rely on a few things that they do not look at: that a rule for a token is
only followed at that token, that a mark is completed only while the beginning that was made with it
is still there, and that levels of nesting and scopes are left only after they were entered. A
checked rule, a `CheckedM`, looks at them, and gives nothing where one of them fails.

Whether a beginning is still the one that was made with a mark cannot be seen from the events alone:
after some of them have been taken back, another beginning may stand in the same place. So a checked
rule moves a parser that is `Watched`. Each operation has a number, each event bears the number of
the operation that added it, and a `Mark` knows the number of the operation that made it.
-/

set_option autoImplicit false

namespace StarlarkSyntax

/-- Is the event a beginning? -/
def Event.isStart : Event → Bool
  | start _ _ => true
  | _ => false

/-- A parser, and when the events of its builder were added. -/
structure Watched where
  parser : Parser
  /-- How many operations there have been. -/
  clock : Nat := 0
  /-- For each event, the number of the operation that added it. -/
  stamps : List Nat := []
deriving Inhabited

/-- A rule with its assertions. It gives nothing if one of them fails, or if it never ends. -/
abbrev CheckedM := StateT Watched Option

/-- Goes on with a rule after each round of it that says so. -/
def CheckedM.goOn {σ : Type} (rule : σ → CheckedM (Bool × σ)) (round : CheckedM (Bool × σ)) :
    CheckedM σ := do
  let (again, state) ← round
  if again then rule state |>.goOn rule else pure state
partial_fixpoint

/-- A marker, and the number of the operation that made it. -/
structure Mark where
  marker : Marker
  birth : Nat
deriving DecidableEq, Inhabited

namespace Watched

/-- What becomes of it by one more operation. Events that are left keep their numbers. -/
def moved (watched : Watched) (parser : Parser) : Watched where
  parser
  clock := watched.clock + 1
  stamps := watched.stamps.take parser.builder.events.size ++
    .replicate (parser.builder.events.size - watched.stamps.length) watched.clock

/-- Does a mark still point at the beginning that was made with it? -/
def owns (watched : Watched) (mark : Mark) : Bool :=
  watched.stamps[mark.marker.position]? == some mark.birth &&
    watched.parser.builder.events[mark.marker.position]?.any Event.isStart

end Watched

namespace Checked

open Grammar (withBuilder onBuilder onScopes atEnd advance missing tooDeep skipRound current?)

/-! ## Operations -/

/-- Does what a rule does, as a single operation. -/
def lift {α : Type} (rule : ParseM α) : CheckedM α := fun watched => do
  let (answer, parser) ← rule watched.parser
  some (answer, watched.moved parser)

instance : MonadLift ParseM CheckedM := ⟨lift⟩

/-- Fails unless something is true. -/
def assert (claim : Watched → Bool) : CheckedM Unit := fun watched =>
  if claim watched then some ((), watched) else none

/-- Fails unless the next token is of the given kind. -/
def assertAt (kind : Kind) : CheckedM Unit := assert (·.parser.builder.isAt kind)

/-- The number of the next operation. -/
def clock : CheckedM Nat := fun watched => some (watched.clock, watched)

/-- Makes a mark with an operation that makes a marker. -/
def markBy (make : Builder → Marker × Builder) : CheckedM Mark := do
  let birth ← clock
  let marker ← withBuilder make
  pure { marker, birth }

/-- Makes a mark at the cursor. -/
def mark : CheckedM Mark := markBy Builder.mark

/-- Completes a mark, which has to point at its own beginning still. -/
def complete {α : Type} (mark : Mark) (change : Marker → Builder → α × Builder) : CheckedM α := do
  assert (·.owns mark)
  withBuilder (change mark.marker)

/-- Makes a node of everything since the mark. -/
def completed (mark : Mark) (kind : NodeKind) : CheckedM Completed :=
  complete mark fun marker => Builder.done marker kind

/-- Makes a node of everything since the mark, and forgets it. -/
def done (mark : Mark) (kind : NodeKind) : CheckedM Unit := do
  let _ ← completed mark kind

/-- Makes an error node of everything since the mark. -/
def fault (mark : Mark) (message : String) : CheckedM Unit := do
  let _ ← complete mark fun marker => Builder.error marker message

/-- Makes a mark around a node. -/
def precede (node : Completed) : CheckedM Mark := markBy (Builder.precede node)

/-- Makes a node of everything since the mark, and a mark around it. -/
def wrap (mark : Mark) (kind : NodeKind) : CheckedM Mark := do
  precede (← completed mark kind)

/-- Forgets a mark. -/
def drop (mark : Mark) : CheckedM Unit := lift (Grammar.drop mark.marker)

/-- Takes back everything since the mark. -/
def rollback (mark : Mark) : CheckedM Unit := lift (Grammar.rollback mark.marker)

/-- Takes a node back, and everything since it began. -/
def rollbackCompleted (node : Completed) : CheckedM Unit :=
  lift (onBuilder (Builder.rollbackCompleted node))

/-- Says that something is missing, unless a rule found it. -/
def require (message : String) (rule : CheckedM Bool) : CheckedM Unit := do
  if !(← rule) then missing message

/-- Makes a node of just the next token. -/
def tokenNode (kind : NodeKind) : CheckedM Unit := do
  let token ← mark
  advance
  done token kind

/-- Makes a node without children. -/
def emptyNode (kind : NodeKind) : CheckedM Unit := do
  let place ← mark
  done place kind

/-- Puts the next token into an error node. -/
def advanceError (message : String) : CheckedM Unit := do
  if ← atEnd then missing message
  else
    let junk ← mark
    advance
    fault junk message

/-- Leaves a level of nesting, which has to have been entered. -/
def exit : CheckedM Unit := do
  assert fun watched => 0 < watched.parser.builder.depth
  onBuilder Builder.exit

/-- Leaves a scope, which must not be that of the whole file. -/
def leaveScope : CheckedM Unit := do
  assert fun watched => 1 < watched.parser.scopes.height
  onScopes Scopes.pop

/-- Follows a rule in a scope that is made from the current one. -/
def within (change : Scope → Scope) (rule : CheckedM Unit) : CheckedM Unit := do
  onScopes fun scopes => scopes.push (change scopes.current)
  rule
  leaveScope

/-! ## Repetition and nesting -/

/-- Follows a rule as long as it says to go on, and answers with what the last round left. -/
def loop {σ : Type} (rule : σ → CheckedM (Bool × σ)) (state : σ) : CheckedM σ :=
  (rule state).goOn rule

/-- Follows a rule as long as it says to go on. -/
def repeatWhile (rule : CheckedM Bool) : CheckedM Unit :=
  loop (fun _ => do pure (← rule, ())) ()

/-- A rule that never ends. -/
def unending {α : Type} : CheckedM α := fun _ => none

/-- Passes one token, or everything up to the bracket that closes it. -/
def skipTooDeep : CheckedM Bool := do
  match ← current? with
  | none | some .statementBreak | some (.closing _) =>
    missing tooDeep
    pure false
  | some _ =>
    let junk ← mark
    let _ ← Grammar.loop skipRound 0
    fault junk tooDeep
    pure true

/-- Follows a rule one level deeper, or passes over what it would read if that is too deep. -/
def nest (rule : CheckedM Bool) : CheckedM Bool := do
  if ← withBuilder Builder.enter then
    let found ← rule
    exit
    pure found
  else
    skipTooDeep

end Checked
end StarlarkSyntax
