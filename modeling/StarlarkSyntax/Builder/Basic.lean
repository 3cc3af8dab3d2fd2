import StarlarkSyntax.Lexed
import StarlarkSyntax.Builder.Event
/-!
# Builders: a cursor that leaves a tree behind

A builder is a cursor over the significant tokens of a text, together with the events that describe
the tree made so far. Nodes are described by means of markers:

1. `mark` makes a marker at the cursor;
2. tokens are passed and other nodes described;
3. the marker is resolved: `done` or `error` make a node of everything since the mark, `drop` leaves
   it to the enclosing node, and `rollback` takes all of it back.

`precede` turns a finished node into a marker that begins where the node begins, so that resolving
it wraps the node. That is how an operator takes what stands on its left.

Trivia and invalid tokens are passed over by the cursor. They are put back when the tree is made.
-/

set_option autoImplicit false

namespace StarlarkSyntax

/-- A cursor over the significant tokens of a text, and what has been described so far. -/
structure Builder where
  /-- All the tokens, in order. -/
  tokens : List Token
  /-- The tokens that a grammar sees. -/
  significant : Array Token
  /-- How many significant tokens have been passed. -/
  cursor : Nat := 0
  events : Array Event := #[]
  /-- The links to wrappers, newest first: the index of a beginning and that of its wrapper. -/
  links : List (Nat × Nat) := []
  /-- What is said about the invalid tokens, in order. -/
  messages : List String
  /-- How many levels of nesting have been entered. -/
  depth : Nat := 0
deriving Inhabited

/-- A place where a node may begin. -/
structure Marker where
  /-- The index of the beginning among the events. -/
  position : Nat
  /-- The index where the node really begins: earlier than `position` if it wraps another. -/
  start : Nat
  /-- The cursor at `start`. -/
  cursor : Nat
deriving DecidableEq, Inhabited

/-- A marker that has become a node. -/
structure Completed where
  start : Nat
  cursor : Nat
deriving DecidableEq, Inhabited

namespace Builder

/-- The deepest nesting that is followed. -/
def maxDepth : Nat := 128

/-- The builder at the start of a text. -/
def ofLexed (lexed : Lexed) : Builder :=
  { tokens := lexed.tokens
    significant := (lexed.tokens.filter (·.kind.isSignificant)).toArray
    messages := lexed.errors.map LexicalError.message }

/-! ## Looking at tokens -/

/-- The token that comes after `n` others. -/
def nthToken? (builder : Builder) (n : Nat) : Option Token :=
  builder.significant[builder.cursor + n]?

/-- The kind of the token that comes after `n` others. -/
def nth? (builder : Builder) (n : Nat) : Option Kind :=
  (builder.nthToken? n).map Token.kind

/-- The kind of the next token. -/
def current? (builder : Builder) : Option Kind :=
  builder.nth? 0

/-- Is the next token of the given kind? -/
def isAt (builder : Builder) (kind : Kind) : Bool :=
  builder.current? == some kind

/-- Is the next token of one of the given kinds? -/
def isAtAny (builder : Builder) (kinds : List Kind) : Bool :=
  builder.current?.any kinds.contains

/-- Have all the tokens been passed? -/
def atEnd (builder : Builder) : Bool :=
  builder.significant.size ≤ builder.cursor

/-- How many tokens are left. -/
def remaining (builder : Builder) : Nat :=
  builder.significant.size - builder.cursor

/-- Only so many tokens can be seen ahead. -/
theorem sub_lt_of_nth? (builder : Builder) {n : Nat} {kind : Kind}
    (seen : builder.nth? n = some kind) :
    builder.remaining - (n + 1) < builder.remaining - n := by
  obtain ⟨token, found, -⟩ := Option.map_eq_some_iff.1 seen
  have inside : builder.cursor + n < builder.significant.size :=
    (Array.getElem?_eq_some_iff.1 found).1
  unfold remaining
  omega

/-! ## Moving on -/

/-- Adds one event. -/
def push (builder : Builder) (event : Event) : Builder :=
  { builder with events := builder.events.push event }

/-- Passes the next token, if there is one. -/
def advance (builder : Builder) : Builder :=
  if builder.atEnd then builder
  else { builder with events := builder.events.push .token, cursor := builder.cursor + 1 }

/-- Says that something is missing at the cursor. -/
def missing (message : String) (builder : Builder) : Builder :=
  builder.push (.error message)

/-- Enters one more level of nesting; `false` if that would be too deep. -/
def enter (builder : Builder) : Bool × Builder :=
  if maxDepth ≤ builder.depth then (false, builder)
  else (true, { builder with depth := builder.depth + 1 })

/-- Leaves a level of nesting. -/
def exit (builder : Builder) : Builder :=
  { builder with depth := builder.depth - 1 }

/-! ## Markers -/

/-- Makes a marker at the cursor. -/
def mark (builder : Builder) : Marker × Builder :=
  let position := builder.events.size
  (⟨position, position, builder.cursor⟩, builder.push (.start .unresolved none))

/-- Takes back the links whose wrapper is at `length` or later. -/
def unlink (length : Nat) : List (Nat × Nat) → Array Event → List (Nat × Nat) × Array Event
  | [], events => ([], events)
  | (wrapped, wrapper) :: links, events =>
    if wrapper < length then ((wrapped, wrapper) :: links, events)
    else unlink length links (events.modify wrapped (Event.withWrapper none))

/-- Cuts the events off, and takes back the links to what is gone. -/
def truncate (length : Nat) (builder : Builder) : Builder :=
  let { tokens, significant, cursor, events, links, messages, depth } := builder
  let (links, events) := unlink length links (events.shrink length)
  { tokens, significant, cursor, events, links, messages, depth }

/-- Resolves the beginning at an index, and ends the innermost open node. -/
def complete (position : Nat) (completion : Completion) (builder : Builder) : Builder :=
  { builder with
    events := (builder.events.modify position (Event.complete completion)).push .finish }

/-- Makes a node of everything since the mark. -/
def done (marker : Marker) (kind : NodeKind) (builder : Builder) : Completed × Builder :=
  (⟨marker.start, marker.cursor⟩, builder.complete marker.position (.node kind))

/-- Makes an error node of everything since the mark. -/
def error (marker : Marker) (message : String) (builder : Builder) : Completed × Builder :=
  (⟨marker.start, marker.cursor⟩, builder.complete marker.position (.error message))

/-- Forgets the marker. What was described since belongs to the enclosing node. -/
def drop (marker : Marker) (builder : Builder) : Builder :=
  if marker.position + 1 = builder.events.size then builder.truncate marker.position
  else { builder with events := builder.events.setIfInBounds marker.position .tombstone }

/-- Takes everything back that was described since some place. -/
def rollbackTo (start cursor : Nat) (builder : Builder) : Builder :=
  { builder.truncate start with cursor }

/-- Takes everything back since the mark; if the marker wraps a node, since that node began. -/
def rollback (marker : Marker) (builder : Builder) : Builder :=
  builder.rollbackTo marker.start marker.cursor

/-- Takes a node back, and everything since it began. -/
def rollbackCompleted (completed : Completed) (builder : Builder) : Builder :=
  builder.rollbackTo completed.start completed.cursor

/-- The last in the chain of wrappers that begins at an index, followed for at most so many links.
A wrapper comes after what it wraps, so there are fewer links than events. -/
def outermost (events : Array Event) : Nat → Nat → Nat
  | 0, index => index
  | fuel + 1, index =>
    match events[index]?.bind Event.wrapper? with
    | some wrapper => outermost events fuel wrapper
    | none => index

/-- A marker that begins where a node begins, outside the wrappers that the node has already. -/
def precede (completed : Completed) (builder : Builder) : Marker × Builder :=
  let (marker, builder) := builder.mark
  let wrapped := outermost builder.events builder.events.size completed.start
  (⟨marker.position, completed.start, completed.cursor⟩,
    { builder with
      events := builder.events.modify wrapped (Event.withWrapper (some marker.position))
      links := (wrapped, marker.position) :: builder.links })

/-! ## Combinations -/

/-- Passes the next token if it is of the given kind, and says whether it was. -/
def matches? (kind : Kind) (builder : Builder) : Bool × Builder :=
  if builder.isAt kind then (true, builder.advance) else (false, builder)

/-- Like `matches?`, but says that something is missing if the token was not there. -/
def expect (kind : Kind) (message : String) (builder : Builder) : Bool × Builder :=
  if builder.isAt kind then (true, builder.advance) else (false, builder.missing message)

/-- Puts the next token into an error node; at the end of the text the node has no children. -/
def advanceError (message : String) (builder : Builder) : Builder :=
  if builder.atEnd then builder.missing message
  else
    let (marker, builder) := builder.mark
    (builder.advance.error marker message).2

end Builder
end StarlarkSyntax
