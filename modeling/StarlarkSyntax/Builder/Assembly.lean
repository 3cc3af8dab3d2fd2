import StarlarkSyntax.Builder.Basic
import StarlarkSyntax.Tree.Basic
/-!
# Assembly: events made into a tree

Two steps make a tree of events. `resolve` follows the links to wrappers, so that each place where
nodes begin lists all of them, outermost first. `run` then goes over the steps once, with the
open nodes on a stack, and takes the tokens one after another.

The tokens that the grammar passed over come back on the way: before each token that is put into the
tree, and before a node that begins inside another. So they end up as far out as they can, and no
node begins or ends with one. Invalid tokens are put into error nodes with their messages.
-/

set_option autoImplicit false

namespace StarlarkSyntax

/-! ## Following the links -/

/-- A step in the making of a tree. -/
inductive Step where
  /-- What begins here, outermost first. -/
  | opening (completions : List Completion)
  | finish
  | token
  | error (message : String)
deriving DecidableEq, Inhabited

namespace Step

/-- Follows a chain of wrappers, for at most so many links. Each wrapper is taken out of the events,
so that it begins no node again, and is put before those that it wraps. -/
def unchain : Nat → Option Nat → Array Event → List Completion → List Completion × Array Event
  | 0, _, events, chain => (chain, events)
  | _ + 1, none, events, chain => (chain, events)
  | fuel + 1, some index, events, chain =>
    match events[index]? with
    | some (.start completion wrapper?) =>
      unchain fuel wrapper? (events.setIfInBounds index .tombstone) (completion :: chain)
    | _ => (chain, events.setIfInBounds index .tombstone)

/-- The steps from an index on, behind those made already; `count` events are left. -/
def resolveFrom : Nat → Nat → Array Event → Array Step → Array Step
  | 0, _, _, steps => steps
  | count + 1, index, events, steps =>
    match events[index]? with
    | some (.start completion wrapper?) =>
      let events := events.setIfInBounds index .tombstone
      let (chain, events) := unchain events.size wrapper? events [completion]
      resolveFrom count (index + 1) events (steps.push (.opening chain))
    | some .finish => resolveFrom count (index + 1) events (steps.push .finish)
    | some .token => resolveFrom count (index + 1) events (steps.push .token)
    | some (.error message) => resolveFrom count (index + 1) events (steps.push (.error message))
    | none => steps

/-- The steps that some events stand for, one for each. -/
def resolve (events : Array Event) : List Step :=
  (resolveFrom events.size 0 events #[]).toList

end Step

/-! ## Making the tree -/

/-- A node that is open, with its children so far, last first. -/
structure Frame where
  kind : NodeKind
  message? : Option String
  children : List Tree
deriving Inhabited

/-- How much of a tree has been made. -/
structure Assembly where
  /-- The tokens that are not in the tree yet. -/
  tokens : List Token
  /-- What is said about the invalid tokens among them. -/
  messages : List String
  /-- The open nodes, innermost first. -/
  frames : List Frame := []
  /-- What stands in no node, last first. -/
  roots : List Tree := []
  /-- The caret after the last token of the text. -/
  stop : Caret
deriving Inhabited

namespace Assembly

/-- Where the next token starts, or where the text ends. -/
def caret (assembly : Assembly) : Caret :=
  match assembly.tokens with
  | token :: _ => token.span.start
  | [] => assembly.stop

/-- Puts a tree into the innermost open node. -/
def push (tree : Tree) (assembly : Assembly) : Assembly :=
  match assembly.frames with
  | frame :: frames =>
    { assembly with frames := { frame with children := tree :: frame.children } :: frames }
  | [] => { assembly with roots := tree :: assembly.roots }

/-- Puts in a token that the grammar passed over. -/
def pushSkipped (token : Token) (assembly : Assembly) : Assembly :=
  if token.kind = .invalid then
    let node := Tree.ofChildren .error (some (assembly.messages.headD "invalid token"))
      [.leaf token] token.span.start
    { assembly with messages := assembly.messages.tail }.push node
  else assembly.push (.leaf token)

/-- Puts in tokens that the grammar passed over, for as long as a test says so. -/
def flushWhile (test : Token → Bool) : List Token → Assembly → Assembly
  | [], assembly => { assembly with tokens := [] }
  | token :: tokens, assembly =>
    if test token then flushWhile test tokens (assembly.pushSkipped token)
    else { assembly with tokens := token :: tokens }

/-- Puts in the passed-over tokens before the next significant one. -/
def flushSkipped (assembly : Assembly) : Assembly :=
  flushWhile (!·.kind.isSignificant) assembly.tokens assembly

/-- Puts in all the tokens that are left. -/
def flushAll (assembly : Assembly) : Assembly :=
  flushWhile (fun _ => true) assembly.tokens assembly

/-- Opens a node. What was passed over stays outside it, unless no node is open at all. -/
def openNode (kind : NodeKind) (message? : Option String) (assembly : Assembly) : Assembly :=
  let assembly := if assembly.frames.isEmpty then assembly else assembly.flushSkipped
  { assembly with frames := ⟨kind, message?, []⟩ :: assembly.frames }

/-- Opens what a beginning has turned out to be. -/
def openCompletion (assembly : Assembly) : Completion → Assembly
  | .node kind => assembly.openNode kind none
  | .error message => assembly.openNode .error (some message)
  | .abandoned | .unresolved => assembly

/-- Closes the innermost open node. -/
def close (assembly : Assembly) : Assembly :=
  match assembly.frames with
  | frame :: frames =>
    let node := Tree.ofChildren frame.kind frame.message? frame.children.reverse assembly.caret
    { assembly with frames }.push node
  | [] => assembly

/-- Puts in the next significant token. -/
def takeToken (assembly : Assembly) : Assembly :=
  let assembly := assembly.flushSkipped
  match assembly.tokens with
  | token :: tokens => { assembly with tokens }.push (.leaf token)
  | [] => assembly

/-- Makes one step. -/
def step (assembly : Assembly) : Step → Assembly
  | .opening completions => completions.foldl openCompletion assembly
  | .finish => assembly.close
  | .token => assembly.takeToken
  | .error message =>
    let assembly := assembly.flushSkipped
    assembly.push (.missing message assembly.caret)

/-- Makes all the steps. If the last of them closes the only open node, that node is the root, and
everything that is left goes into it. -/
def run : List Step → Assembly → Assembly
  | [], assembly => assembly
  | [.finish], assembly =>
    (if assembly.frames.length = 1 then assembly.flushAll else assembly).close
  | step :: steps, assembly => run steps (assembly.step step)

/-- Closes all the nodes that are still open. -/
def closeAll : List Frame → Assembly → Assembly
  | [], assembly => assembly
  | _ :: frames, assembly => closeAll frames assembly.close

/-- The tree. If there is not just one node that could be the root, or if that is an error, a root
is put around everything. -/
def root (assembly : Assembly) : Tree :=
  let assembly := (closeAll assembly.frames assembly).flushAll
  match assembly.roots with
  | [tree] =>
    if tree.isNode && !tree.isError then tree
    else .ofChildren .file none [tree] assembly.caret
  | roots => .ofChildren .file none roots.reverse assembly.caret

end Assembly

namespace Builder

/-- The tree that a builder describes. -/
def finish (builder : Builder) : Tree :=
  let stop := (builder.tokens.getLast?.map (·.span.stop)).getD {}
  Assembly.root <| Assembly.run (Step.resolve builder.events)
    { tokens := builder.tokens, messages := builder.messages, stop }

end Builder
end StarlarkSyntax
