import StarlarkSyntax.Grammar.Subscript
/-!
# Chains of names, calls and subscripts

A primary expression may be followed by any number of links: a point and a name, a call, or a
subscript. Where something is assigned to, only the last link of a chain is a target, and a
subscript makes none; but which link is the last is known only after it. So a chain is read on the
assumption that its first name is the target, and is read again from the start, assuming less, when
a link shows that the assumption was wrong.
-/

set_option autoImplicit false

namespace StarlarkSyntax.Grammar

/-- Which name of a chain is assigned to, as far as is known. -/
inductive Assigned where
  /-- The first name. A point or a subscript after it shows that it is not. -/
  | first
  /-- The last of the names after a point. A subscript shows that there is none. -/
  | last
  /-- None. -/
  | nothing
deriving DecidableEq, Inhabited

/-- The kind of node that a name makes. -/
def nameKind (target : Bool) : NodeKind :=
  if target then .targetExpression else .referenceExpression

/-- A name, a literal, or something in brackets. -/
def primary (nested : Nested) (target : Bool) : ParseM Bool := do
  match ← current? with
  | some .identifier =>
    tokenNode (nameKind target)
    pure true
  | some .int =>
    tokenNode .integerLiteralExpression
    pure true
  | some .float =>
    tokenNode .floatLiteralExpression
    pure true
  | some .string | some .bytes =>
    tokenNode .stringLiteralExpression
    pure true
  | some (.opening delimiter) => nested (.display delimiter target)
  | _ => pure false

/-- How far the reading of a chain has come: a marker around what there is, and a weaker assumption
if the one it was read on was wrong. -/
structure Chain where
  marker : Marker
  retry? : Option Assigned := none
deriving DecidableEq, Inhabited

/-- Reads one more link of a chain, if there is one. -/
def link (nested : Nested) (assigned : Assigned) (chain : Chain) : ParseM (Bool × Chain) := do
  match ← current? with
  | some .dot =>
    if assigned = .first then
      rollback chain.marker
      pure (false, { chain with retry? := some .last })
    else
      advance
      let _ ← expect .identifier "expected a name"
      let more ← isAtAny [.dot, lpar, lbracket]
      let marker ← wrap chain.marker (nameKind (assigned = .last && !more))
      pure (true, { marker })
  | some (.opening .parenthesis) =>
    let _ ← nested .arguments
    let marker ← wrap chain.marker .callExpression
    pure (true, { marker })
  | some (.opening .bracket) =>
    if assigned = .nothing then
      advance
      let kind ← subscript nested
      let marker ← wrap chain.marker kind
      pure (true, { marker })
    else
      rollback chain.marker
      pure (false, { chain with retry? := some .nothing })
  | _ =>
    drop chain.marker
    pure (false, chain)

/-- What became of reading a chain. -/
inductive ChainEnd where
  | missing
  | found
  /-- The chain was taken back and has to be read on a weaker assumption. -/
  | retry (assigned : Assigned)
deriving DecidableEq, Inhabited

/-- Reads a chain on an assumption. -/
def chain (nested : Nested) (assigned : Assigned) : ParseM ChainEnd := do
  let marker ← mark
  if !(← primary nested (assigned = .first)) then
    drop marker
    pure .missing
  else
    let ended ← loop (link nested assigned) { marker }
    match ended.retry? with
    | some assigned => pure (.retry assigned)
    | none => pure .found

/-- Reads a chain on weaker and weaker assumptions. -/
def Nested.chainFrom (nested : Nested) (assigned : Assigned) : ParseM Bool := do
  match ← chain nested assigned with
  | .missing => pure false
  | .found => pure true
  | .retry assigned => nested |>.chainFrom assigned
partial_fixpoint

/-- A primary expression and its links. -/
def member (nested : Nested) (target : Bool) : ParseM Bool :=
  nested.chainFrom (if target then .first else .nothing)

end StarlarkSyntax.Grammar
