import StarlarkSyntax.Tree.NodeKind
/-!
# Events: a tree described as a list

A grammar does not make a tree. It leaves behind a list of events from which the tree is made at the
end, and taking back some work is cutting the list off. A node that begins before one that has been
described already is written down where it was thought of; the earlier beginning gets a link to it,
its *wrapper*. Following wrappers always leads further back in the list.
-/

set_option autoImplicit false

namespace StarlarkSyntax

/-- What a beginning has turned out to be. -/
inductive Completion where
  /-- Nothing yet. -/
  | unresolved
  /-- No node after all. -/
  | abandoned
  | node (kind : NodeKind)
  | error (message : String)
deriving DecidableEq, Inhabited

/-- One step in the description of a tree. -/
inductive Event where
  /-- A node begins here, and so does the one at the index of its wrapper, around it. -/
  | start (completion : Completion) (wrapper? : Option Nat)
  /-- The innermost node that is open ends here. -/
  | finish
  /-- The next significant token, with what was passed over before it. -/
  | token
  /-- An error node without children. -/
  | error (message : String)
deriving DecidableEq, Inhabited

namespace Event

/-- A beginning that is no node. -/
def tombstone : Event :=
  .start .abandoned none

/-- The beginning with its completion; nothing else has one. -/
def complete (completion : Completion) : Event → Event
  | start _ wrapper? => start completion wrapper?
  | event => event

/-- The beginning with another wrapper, or with none. -/
def withWrapper (wrapper? : Option Nat) : Event → Event
  | start completion _ => start completion wrapper?
  | event => event

/-- The wrapper of a beginning. -/
def wrapper? : Event → Option Nat
  | start _ wrapper? => wrapper?
  | _ => none

end Event
end StarlarkSyntax
