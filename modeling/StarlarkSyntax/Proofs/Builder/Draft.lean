import StarlarkSyntax.Builder.Assembly
/-!
# Trees drawn directly

What a builder is meant to make, without events and without links. A `Draft` keeps the partial trees
themselves: an open marker is a frame with what stands in it so far, a finished node is an item of
the frame around it, and each marker remembers the page as it was when it was made.

The markers have numbers, in the order in which they are made by `mark`, `precede`, and
`advanceError` for itself. `Draft.step` is `none` where a marker is not used as it should be:

* each marker is finished, dropped, taken back, wrapped or kept once, and one that was made after a
  marker that has been taken back since is not used any more;
* only the innermost open marker is finished or dropped, and a node is wrapped only while it stands
  in the innermost frame;
* what is taken back was begun while no frames were open but those that are open still.

A `Bench` follows the same operations with a builder and its markers. That the builder's tree is the
one drawn here is the subject of `StarlarkSyntax.Proofs.Builder.Drawn`.
-/

set_option autoImplicit false

namespace StarlarkSyntax

/-! ## Trees without what was passed over -/

/-- A tree of significant tokens, without places in the text. -/
inductive Bare where
  | token (token : Token)
  | node (kind : NodeKind) (message? : Option String) (children : List Bare)
deriving Inhabited

namespace Tree

/-- Is this an error node that was put around an invalid token? -/
def holdsInvalid (kind : NodeKind) (children : List Tree) : Bool :=
  match children with
  | [leaf token] => kind == .error && token.kind == .invalid
  | _ => false

mutual

/-- The tree without trivia and invalid tokens, which may leave nothing of it. -/
def bare : Tree → List Bare
  | leaf token => if token.kind.isSignificant then [.token token] else []
  | node kind message? _ children =>
    if holdsInvalid kind children then [] else [.node kind message? (bareAll children)]

/-- Several trees without trivia and invalid tokens. -/
def bareAll : List Tree → List Bare
  | [] => []
  | tree :: trees => bare tree ++ bareAll trees

end

end Tree

/-! ## Pages -/

/-- What stands in a frame. -/
inductive Item where
  | passed (token : Token)
  /-- An error node for something that is missing. -/
  | missing (message : String)
  /-- A node that was made with a marker. -/
  | made (marker : Nat) (kind : NodeKind) (message? : Option String) (children : List Bare)
deriving Inhabited

namespace Item

def bare : Item → Bare
  | .passed token => .token token
  | .missing message => .node .error (some message) []
  | .made _ kind message? children => .node kind message? children

/-- Is this the node that was made with a marker? -/
def isMadeWith (marker : Nat) : Item → Bool
  | .made marker' _ _ _ => marker' == marker
  | _ => false

end Item

/-- An open marker, and what stands in the frame around it before it. -/
structure Opened where
  marker : Nat
  outside : List Item
deriving Inhabited

/-- Partial trees: the tokens that are left, what stands in the innermost frame, and the open frames,
innermost first. -/
structure Page where
  rest : List Token
  items : List Item := []
  frames : List Opened := []
deriving Inhabited

namespace Page

/-- The open markers, innermost first. -/
def markers (page : Page) : List Nat := page.frames.map Opened.marker

def add (item : Item) (page : Page) : Page :=
  { page with items := page.items ++ [item] }

/-- Passes the next token, if there is one. -/
def advance (page : Page) : Page :=
  match page.rest with
  | [] => page
  | token :: rest => { page with rest }.add (.passed token)

/-- Opens a frame. -/
def openFrame (marker : Nat) (page : Page) : Page :=
  { page with items := [], frames := ⟨marker, page.items⟩ :: page.frames }

/-- Makes a node of the innermost frame. -/
def close (kind : NodeKind) (message? : Option String) (page : Page) : Option Page :=
  match page.frames with
  | [] => none
  | ⟨marker, outside⟩ :: frames =>
    some { page with
      items := outside ++ [.made marker kind message? (page.items.map Item.bare)]
      frames }

/-- Leaves what stands in the innermost frame to the frame around it. -/
def splice (page : Page) : Option Page :=
  match page.frames with
  | [] => none
  | ⟨_, outside⟩ :: frames => some { page with items := outside ++ page.items, frames }

/-- Opens a frame around the node that was made with a marker and everything after it. -/
def wrap (made marker : Nat) (page : Page) : Option Page :=
  match page.items.dropWhile (!·.isMadeWith made) with
  | [] => none
  | items =>
    let outside := page.items.takeWhile (!·.isMadeWith made)
    some { page with items, frames := ⟨marker, outside⟩ :: page.frames }

/-- A single node is the root if it is no error; otherwise a file is put around everything. -/
def root : List Bare → Bare
  | [.node kind message? children] =>
    if kind = .error then .node .file none [.node kind message? children]
    else .node kind message? children
  | trees => .node .file none trees

/-- The tree when no frame is open. Tokens that were not passed go into the last thing on the page if
that was made with a marker. -/
def tree (page : Page) : Bare :=
  let left := page.rest.map Bare.token
  match page.items.getLast? with
  | some (.made _ kind message? children) =>
    root (page.items.dropLast.map Item.bare ++ [.node kind message? (children ++ left)])
  | _ => root (page.items.map Item.bare ++ left)

end Page

/-! ## Drafts -/

/-- What has become of a marker. -/
inductive Status where
  | opened
  /-- It has become a node. -/
  | made
  /-- It is not to be used any more. -/
  | spent
deriving DecidableEq, Inhabited

/-- What is known of a marker. -/
structure Record where
  /-- The first marker of those that it wraps, or itself. -/
  root : Nat
  /-- The page when that one was made. -/
  saved : Page
  status : Status
deriving Inhabited

/-- Partial trees, and what is known of each marker. -/
structure Draft where
  page : Page
  records : List Record := []
deriving Inhabited

/-- One thing that a grammar does with a builder. Markers are given by their numbers. -/
inductive Operation where
  | mark
  | done (marker : Nat) (kind : NodeKind)
  | error (marker : Nat) (message : String)
  | drop (marker : Nat)
  | rollback (marker : Nat)
  | precede (marker : Nat)
  | keep (marker : Nat)
  | advance
  | missing (message : String)
  | advanceError (message : String)
deriving Inhabited

namespace Draft

/-- A draft with no markers, over the tokens that a grammar sees. -/
def ofLexed (lexed : Lexed) : Draft :=
  { page := { rest := lexed.tokens.filter (·.kind.isSignificant) } }

/-- What is known of a marker with a status. -/
def find? (draft : Draft) (marker : Nat) (status : Status) : Option Record :=
  draft.records[marker]?.filter (·.status = status)

def set (draft : Draft) (marker : Nat) (status : Status) : Draft :=
  { draft with records := draft.records.modify marker ({ · with status }) }

def mark (draft : Draft) : Draft :=
  { page := draft.page.openFrame draft.records.length
    records := draft.records ++ [⟨draft.records.length, draft.page, .opened⟩] }

/-- Makes a node of a marker, if it is the innermost. -/
def complete (marker : Nat) (kind : NodeKind) (message? : Option String) (draft : Draft) :
    Option Draft := do
  let _ ← draft.find? marker .opened
  if draft.page.markers.head? ≠ some marker then none
  let page ← draft.page.close kind message?
  some ({ draft with page }.set marker .made)

def drop (marker : Nat) (draft : Draft) : Option Draft := do
  let _ ← draft.find? marker .opened
  if draft.page.markers.head? ≠ some marker then none
  let page ← draft.page.splice
  some ({ draft with page }.set marker .spent)

/-- Takes everything back since the first marker of those that a marker wraps was made. -/
def rollback (marker : Nat) (draft : Draft) : Option Draft := do
  let record ← draft.records[marker]?
  if record.status ≠ .spent ∧ record.saved.markers <:+ draft.page.markers then
    some
      { page := record.saved
        records := draft.records.take record.root ++
          (draft.records.drop record.root).map ({ · with status := .spent }) }
  else none

def precede (marker : Nat) (draft : Draft) : Option Draft := do
  let record ← draft.find? marker .made
  let page ← draft.page.wrap marker draft.records.length
  let draft := { draft with page }.set marker .spent
  some { draft with records := draft.records ++ [{ record with status := .opened }] }

def keep (marker : Nat) (draft : Draft) : Option Draft := do
  let _ ← draft.find? marker .made
  some (draft.set marker .spent)

/-- Does one thing, if it is allowed. -/
def step (draft : Draft) : Operation → Option Draft
  | .mark => some draft.mark
  | .done marker kind => draft.complete marker kind none
  | .error marker message => draft.complete marker .error (some message)
  | .drop marker => draft.drop marker
  | .rollback marker => draft.rollback marker
  | .precede marker => draft.precede marker
  | .keep marker => draft.keep marker
  | .advance => some { draft with page := draft.page.advance }
  | .missing message => some { draft with page := draft.page.add (.missing message) }
  | .advanceError message =>
    if draft.page.rest.isEmpty then
      some { draft with page := draft.page.add (.missing message) }
    else do
      let marker := draft.records.length
      let draft := draft.mark
      let draft ← { draft with page := draft.page.advance }.complete marker .error (some message)
      draft.keep marker

/-! What an operation does, if it is allowed. -/

theorem find?_spec {draft : Draft} {marker : Nat} {status : Status} {record : Record}
    (found : draft.find? marker status = some record) :
    draft.records[marker]? = some record ∧ record.status = status := by
  simpa [find?, Option.filter_eq_some_iff] using found

theorem complete_spec {draft draft' : Draft} {marker : Nat} {kind : NodeKind}
    {message? : Option String} (done : draft.complete marker kind message? = some draft') :
    ∃ record page, draft.records[marker]? = some record ∧ record.status = .opened ∧
      draft.page.markers.head? = some marker ∧ draft.page.close kind message? = some page ∧
      draft' = ⟨page, draft.records.modify marker ({ · with status := .made })⟩ := by
  unfold complete at done
  obtain ⟨record, found, done⟩ := Option.bind_eq_some_iff.1 done
  obtain ⟨found, is⟩ := find?_spec found
  split at done
  · contradiction
  · rename_i innermost
    obtain ⟨page, closed, done⟩ := Option.bind_eq_some_iff.1 done
    exact ⟨record, page, found, is, Decidable.not_not.1 innermost, closed, (Option.some.inj done).symm⟩

theorem drop_spec {draft draft' : Draft} {marker : Nat}
    (dropped : draft.drop marker = some draft') :
    ∃ record page, draft.records[marker]? = some record ∧ record.status = .opened ∧
      draft.page.markers.head? = some marker ∧ draft.page.splice = some page ∧
      draft' = ⟨page, draft.records.modify marker ({ · with status := .spent })⟩ := by
  unfold drop at dropped
  obtain ⟨record, found, dropped⟩ := Option.bind_eq_some_iff.1 dropped
  obtain ⟨found, is⟩ := find?_spec found
  split at dropped
  · contradiction
  · rename_i innermost
    obtain ⟨page, spliced, dropped⟩ := Option.bind_eq_some_iff.1 dropped
    exact ⟨record, page, found, is, Decidable.not_not.1 innermost, spliced,
      (Option.some.inj dropped).symm⟩

theorem rollback_spec {draft draft' : Draft} {marker : Nat}
    (back : draft.rollback marker = some draft') :
    ∃ record, draft.records[marker]? = some record ∧ record.status ≠ .spent ∧
      record.saved.markers <:+ draft.page.markers ∧
      draft' = ⟨record.saved, draft.records.take record.root ++
        (draft.records.drop record.root).map ({ · with status := .spent })⟩ := by
  unfold rollback at back
  obtain ⟨record, found, back⟩ := Option.bind_eq_some_iff.1 back
  split at back
  · rename_i usable
    exact ⟨record, found, usable.1, usable.2, (Option.some.inj back).symm⟩
  · contradiction

theorem precede_spec {draft draft' : Draft} {marker : Nat}
    (preceded : draft.precede marker = some draft') :
    ∃ record page, draft.records[marker]? = some record ∧ record.status = .made ∧
      draft.page.wrap marker draft.records.length = some page ∧
      draft' = ⟨page, draft.records.modify marker ({ · with status := .spent }) ++
        [{ record with status := .opened }]⟩ := by
  unfold precede at preceded
  obtain ⟨record, found, preceded⟩ := Option.bind_eq_some_iff.1 preceded
  obtain ⟨found, is⟩ := find?_spec found
  obtain ⟨page, wrapped, preceded⟩ := Option.bind_eq_some_iff.1 preceded
  exact ⟨record, page, found, is, wrapped, (Option.some.inj preceded).symm⟩

theorem keep_spec {draft draft' : Draft} {marker : Nat} (kept : draft.keep marker = some draft') :
    ∃ record, draft.records[marker]? = some record ∧ record.status = .made ∧
      draft' = ⟨draft.page, draft.records.modify marker ({ · with status := .spent })⟩ := by
  unfold keep at kept
  obtain ⟨record, found, kept⟩ := Option.bind_eq_some_iff.1 kept
  obtain ⟨found, is⟩ := find?_spec found
  exact ⟨record, found, is, (Option.some.inj kept).symm⟩

/-- The draft after some operations. -/
def run : List Operation → Draft → Option Draft
  | [], draft => some draft
  | operation :: operations, draft => (draft.step operation).bind (run operations)

/-- The tree that some operations draw, if all of them are allowed and no marker stays open. -/
def tree? (lexed : Lexed) (operations : List Operation) : Option Bare := do
  let draft ← (ofLexed lexed).run operations
  if draft.page.frames.isEmpty then some draft.page.tree else none

end Draft

/-! ## The same operations with a builder -/

/-- What a marker has become. -/
inductive Held where
  | marker (marker : Marker)
  | completed (completed : Completed)
  | gone
deriving Inhabited

/-- A builder, and the markers that were made. -/
structure Bench where
  builder : Builder
  held : List Held := []
deriving Inhabited

namespace Bench

def marker? (bench : Bench) (marker : Nat) : Option Marker :=
  match bench.held[marker]? with
  | some (.marker marker) => some marker
  | _ => none

def completed? (bench : Bench) (marker : Nat) : Option Completed :=
  match bench.held[marker]? with
  | some (.completed completed) => some completed
  | _ => none

/-- Does one thing with the builder, if the marker is of the right type for it. -/
def step (bench : Bench) : Operation → Option Bench
  | .mark =>
    let (marker, builder) := bench.builder.mark
    some ⟨builder, bench.held ++ [.marker marker]⟩
  | .done marker kind => do
    let (completed, builder) := bench.builder.done (← bench.marker? marker) kind
    some ⟨builder, bench.held.set marker (.completed completed)⟩
  | .error marker message => do
    let (completed, builder) := bench.builder.error (← bench.marker? marker) message
    some ⟨builder, bench.held.set marker (.completed completed)⟩
  | .drop marker => do
    some ⟨bench.builder.drop (← bench.marker? marker), bench.held.set marker .gone⟩
  | .rollback marker =>
    match bench.held[marker]? with
    | some (.marker held) => some ⟨bench.builder.rollback held, bench.held.set marker .gone⟩
    | some (.completed held) =>
      some ⟨bench.builder.rollbackCompleted held, bench.held.set marker .gone⟩
    | _ => none
  | .precede marker => do
    let (wrapper, builder) := bench.builder.precede (← bench.completed? marker)
    some ⟨builder, bench.held.set marker .gone ++ [.marker wrapper]⟩
  | .keep marker => do
    let _ ← bench.completed? marker
    some { bench with held := bench.held.set marker .gone }
  | .advance => some { bench with builder := bench.builder.advance }
  | .missing message => some { bench with builder := bench.builder.missing message }
  | .advanceError message =>
    let made := if bench.builder.atEnd then [] else [Held.gone]
    some ⟨bench.builder.advanceError message, bench.held ++ made⟩

/-- The bench after some operations. -/
def run : List Operation → Bench → Option Bench
  | [], bench => some bench
  | operation :: operations, bench => (bench.step operation).bind (run operations)

/-- The tree that a builder makes by some operations, if each marker is of the right type. -/
def tree? (lexed : Lexed) (operations : List Operation) : Option Tree :=
  (run operations ⟨Builder.ofLexed lexed, []⟩).map (·.builder.finish)

end Bench
end StarlarkSyntax
