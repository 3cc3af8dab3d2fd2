import StarlarkSyntax.Grammar.Parser
import StarlarkSyntax.Proofs.Builder.Drawn
import StarlarkSyntax.Proofs.Grammar.Shape
/-!
# Rules and what they add to a draft

What a rule of the grammar does can be followed on a draft, which has the partial trees themselves. A
`Stage` is a parser together with the draft that its builder stands for. `Reaches` says that a rule
ends and what is then the case; usually that it has added something to the innermost frame (`Adds`),
or has left a frame open with something in it (`Inside`). Both leave everything alone that was there
before, and the leaves of what was made are the tokens that were read.

For the moves of the builder there is one lemma each. They say what a mark that is opened becomes:
`reaches_done`, `reaches_drop`, `reaches_rollback` and `reaches_wrap`.
-/

set_option autoImplicit false

namespace StarlarkSyntax

open Layout (Piece)

/-- The builder stands for the draft. -/
def Sees (lexed : Lexed) (draft : Draft) (held : List Held) (builder : Builder) : Prop :=
  ∃ plan, Stands lexed plan draft ⟨builder, held⟩ ∧ Follows (Draft.ofLexed lexed).page plan draft

namespace Sees

variable {lexed : Lexed} {draft : Draft} {held : List Held} {builder : Builder}

/-- What is allowed on the draft can be done with the builder. -/
theorem step (sees : Sees lexed draft held builder) {operation : Operation} {draft' : Draft}
    (stepped : draft.step operation = some draft') :
    ∃ held' builder', Bench.step ⟨builder, held⟩ operation = some ⟨builder', held'⟩ ∧
      Sees lexed draft' held' builder' := by
  obtain ⟨plan, stands, follows⟩ := sees
  obtain ⟨⟨builder', held'⟩, stepped', stands'⟩ := stands.step follows rfl stepped
  exact ⟨held', builder', stepped', _, stands', follows.step ⟨rfl, rfl⟩ stepped⟩

theorem length_held (sees : Sees lexed draft held builder) : held.length = draft.records.length := by
  obtain ⟨plan, stands, follows⟩ := sees
  exact stands.count.trans follows.count.symm

theorem nth? (sees : Sees lexed draft held builder) (n : Nat) :
    builder.nth? n = (draft.page.rest[n]?).map Token.kind := by
  obtain ⟨plan, stands, -⟩ := sees
  rw [stands.reads.rest, List.getElem?_drop, Array.getElem?_toList]
  rfl

theorem atEnd (sees : Sees lexed draft held builder) :
    builder.atEnd = draft.page.rest.isEmpty := by
  obtain ⟨plan, stands, -⟩ := sees
  exact stands.reads.atEnd

/-- Nothing on the page was made with a marker that is still to come. -/
theorem lt_of_holds (sees : Sees lexed draft held builder) {marker : Nat}
    (holds : draft.page.Holds marker) : marker < draft.records.length := by
  obtain ⟨plan, stands, follows⟩ := sees
  by_contra late
  rw [follows.count] at late
  have notOpened : marker ∉ Act.opened plan.acts := fun mem =>
    late (follows.bounded marker (follows.ordered.owned marker mem))
  rcases Page.holds_draw follows.page nofun notOpened holds with ⟨item, mem, -⟩ | ⟨_, mem, -⟩
  · contradiction
  · contradiction

/-- How deep the builder is makes no difference. -/
theorem atDepth (sees : Sees lexed draft held builder) (depth : Nat) :
    Sees lexed draft held { builder with depth } := by
  obtain ⟨plan, stands, follows⟩ := sees
  obtain ⟨next, describes⟩ := stands.describes
  refine ⟨plan, ⟨stands.reads.change rfl rfl rfl rfl rfl, ⟨next, ⟨?_, describes.events,
    describes.linked⟩⟩, stands.count, stands.keeps⟩, follows⟩
  exact ⟨describes.linking.recorded, describes.linking.sorted, describes.linking.forward⟩

/-- The first of the markers that a marker wraps was made no later. -/
theorem root_le (sees : Sees lexed draft held builder) {marker : Nat} {record : Record}
    (found : draft.records[marker]? = some record) (live : record.status ≠ .spent) :
    record.root ≤ marker := by
  obtain ⟨plan, -, follows⟩ := sees
  exact (follows.owned found live).2.2

end Sees

namespace Draft

variable {draft : Draft} {marker : Nat} {record : Record} {outside : List Item}
  {frames : List Opened}

theorem find?_eq {status : Status} (found : draft.records[marker]? = some record)
    (is : record.status = status) : draft.find? marker status = some record := by
  rw [find?, found, Option.filter_some]
  simp [is]

theorem complete_eq (found : draft.records[marker]? = some record) (is : record.status = .opened)
    (innermost : draft.page.frames = ⟨marker, outside⟩ :: frames) (kind : NodeKind)
    (message? : Option String) : draft.complete marker kind message? =
      some ⟨{ draft.page with
          items := outside ++ [.made marker kind message? (draft.page.items.map Item.bare)]
          frames }, draft.records.modify marker ({ · with status := .made })⟩ := by
  simp [complete, find?_eq found is, Page.markers, Page.close, innermost, set]

theorem drop_eq (found : draft.records[marker]? = some record) (is : record.status = .opened)
    (innermost : draft.page.frames = ⟨marker, outside⟩ :: frames) : draft.drop marker =
      some ⟨{ draft.page with items := outside ++ draft.page.items, frames },
        draft.records.modify marker ({ · with status := .spent })⟩ := by
  simp [drop, find?_eq found is, Page.markers, Page.splice, innermost, set]

theorem rollback_eq (found : draft.records[marker]? = some record) (is : record.status ≠ .spent)
    (open' : record.saved.markers <:+ draft.page.markers) : draft.rollback marker =
      some ⟨record.saved, draft.records.take record.root ++
        (draft.records.drop record.root).map ({ · with status := .spent })⟩ := by
  simp [rollback, found, is, open']

theorem precede_eq (found : draft.records[marker]? = some record) (is : record.status = .made)
    {kind : NodeKind} {message? : Option String} {children : List Bare}
    (items : draft.page.items = outside ++ [.made marker kind message? children])
    (away : ∀ item ∈ outside, item.isMadeWith marker = false) : draft.precede marker =
      some ⟨{ draft.page with
          items := [.made marker kind message? children]
          frames := ⟨draft.records.length, outside⟩ :: draft.page.frames },
        draft.records.modify marker ({ · with status := .spent }) ++
          [{ record with status := .opened }]⟩ := by
  have others : ∀ item ∈ outside, (!item.isMadeWith marker) = true := fun item mem => by
    rw [away item mem]
    rfl
  have wrapped : draft.page.wrap marker draft.records.length = some { draft.page with
      items := [.made marker kind message? children]
      frames := ⟨draft.records.length, outside⟩ :: draft.page.frames } := by
    unfold Page.wrap
    rw [items, List.dropWhile_append_of_pos others, List.takeWhile_append_of_pos others]
    simp [Item.isMadeWith]
  simp [precede, find?_eq found is, wrapped, set]

end Draft

/-- A parser and the draft that its builder stands for. -/
structure Stage (lexed : Lexed) where
  parser : Parser
  draft : Draft
  held : List Held
  sees : Sees lexed draft held parser.builder

/-- Where the rules stand, apart from what has been read. -/
structure Place where
  scopes : Scopes
  blocks : Nat
  strayIndents : Nat
  /-- How deep the rules are nested. -/
  depth : Nat

namespace Stage

variable {lexed : Lexed}

/-- The tokens that are left, without their places in the text. -/
def rest (stage : Stage lexed) : List Piece := stage.draft.page.rest.map Token.piece

def place (stage : Stage lexed) : Place :=
  ⟨stage.parser.scopes, stage.parser.blocks, stage.parser.strayIndents, stage.parser.builder.depth⟩

/-- The same stage with the rules in another place. -/
def placed (stage : Stage lexed) (place : Place) : Stage lexed where
  parser :=
    { builder := { stage.parser.builder with depth := place.depth }
      scopes := place.scopes
      blocks := place.blocks
      strayIndents := place.strayIndents }
  draft := stage.draft
  held := stage.held
  sees := stage.sees.atDepth place.depth

/-- The stage with another builder, for which another draft stands. -/
def moved (stage : Stage lexed) {draft : Draft} {held : List Held} {builder : Builder}
    (sees : Sees lexed draft held builder) : Stage lexed :=
  ⟨{ stage.parser with builder }, draft, held, sees⟩

@[simp] theorem rest_placed (stage : Stage lexed) (place : Place) :
    (stage.placed place).rest = stage.rest := rfl

@[simp] theorem place_placed (stage : Stage lexed) (place : Place) :
    (stage.placed place).place = place := rfl

@[simp] theorem placed_placed (stage : Stage lexed) (first second : Place) :
    (stage.placed first).placed second = stage.placed second := rfl

@[simp] theorem placed_place (stage : Stage lexed) : stage.placed stage.place = stage := rfl

/-- Markers that were there before are known as before, and the rules stand in the same place. -/
structure Later (stage after : Stage lexed) : Prop where
  length : stage.draft.records.length ≤ after.draft.records.length
  records : ∀ marker, marker < stage.draft.records.length →
    after.draft.records[marker]? = stage.draft.records[marker]?
  held : ∀ marker, marker < stage.draft.records.length → after.held[marker]? = stage.held[marker]?
  place : after.place = stage.place

/-- Something was added to the innermost frame since some stage. -/
structure Adds (stage : Stage lexed) (made : List Shape) (after : Stage lexed) : Prop where
  later : Later stage after
  rest : stage.rest = Shape.leavesAll made ++ after.rest
  frames : after.draft.page.frames = stage.draft.page.frames
  items : ∃ more, after.draft.page.items = stage.draft.page.items ++ more ∧
    Bare.shapes (more.map Item.bare) = made

/-- A marker has been opened since some stage, and something stands in its frame. -/
structure Inside (stage : Stage lexed) (marker : Marker) (made : List Shape)
    (after : Stage lexed) : Prop where
  later : Later stage after
  rest : stage.rest = Shape.leavesAll made ++ after.rest
  opened : ∃ number record, after.draft.records[number]? = some record ∧
    record.status = .opened ∧ record.saved = stage.draft.page ∧
    stage.draft.records.length ≤ record.root ∧ after.held[number]? = some (.marker marker) ∧
    after.draft.page.frames = ⟨number, stage.draft.page.items⟩ :: stage.draft.page.frames
  items : Bare.shapes (after.draft.page.items.map Item.bare) = made

/-- A marker has been opened since some stage, and what was made since can be taken back. -/
structure Returns (stage : Stage lexed) (marker : Marker) (after : Stage lexed) : Prop where
  later : Later stage after
  opened : ∃ (number : Nat) (record : Record), after.draft.records[number]? = some record ∧
    record.status = .opened ∧ record.saved = stage.draft.page ∧
    stage.draft.records.length ≤ record.root ∧ after.held[number]? = some (.marker marker)
  around : stage.draft.page.markers <:+ after.draft.page.markers

theorem Later.refl (stage : Stage lexed) : Later stage stage :=
  ⟨Nat.le_refl _, fun _ _ => rfl, fun _ _ => rfl, rfl⟩

theorem Later.trans {stage middle after : Stage lexed} (first : Later stage middle)
    (second : Later middle after) : Later stage after where
  length := Nat.le_trans first.length second.length
  records := fun marker lt =>
    (second.records marker (Nat.lt_of_lt_of_le lt first.length)).trans (first.records marker lt)
  held := fun marker lt =>
    (second.held marker (Nat.lt_of_lt_of_le lt first.length)).trans (first.held marker lt)
  place := second.place.trans first.place

theorem Adds.refl (stage : Stage lexed) : Adds stage [] stage :=
  ⟨.refl stage, rfl, rfl, [], (List.append_nil _).symm, rfl⟩

theorem Adds.trans {stage middle after : Stage lexed} {made made' : List Shape}
    (first : Adds stage made middle) (second : Adds middle made' after) :
    Adds stage (made ++ made') after where
  later := first.later.trans second.later
  rest := by rw [first.rest, second.rest, Shape.leavesAll_append, List.append_assoc]
  frames := second.frames.trans first.frames
  items := by
    obtain ⟨more, items, shapes⟩ := first.items
    obtain ⟨more', items', shapes'⟩ := second.items
    refine ⟨more ++ more', by rw [items', items, List.append_assoc], ?_⟩
    rw [List.map_append, Bare.shapes_append, shapes, shapes']

/-- What is left after what was made. -/
theorem Adds.left {stage after : Stage lexed} {made : List Shape} {left : List Piece}
    (adds : Adds stage made after) (rest : stage.rest = Shape.leavesAll made ++ left) :
    after.rest = left :=
  List.append_cancel_left (adds.rest.symm.trans rest)

/-- Where the rules stand makes no difference to what was added. -/
theorem Adds.placed {stage after : Stage lexed} {made : List Shape} {place : Place}
    (adds : Adds (stage.placed place) made after) : Adds stage made (after.placed stage.place) :=
  ⟨⟨adds.later.length, adds.later.records, adds.later.held, rfl⟩, adds.rest, adds.frames, adds.items⟩

theorem Inside.adds {stage middle after : Stage lexed} {marker : Marker} {made made' : List Shape}
    (inside : Inside stage marker made middle) (adds : Adds middle made' after) :
    Inside stage marker (made ++ made') after where
  later := inside.later.trans adds.later
  rest := by rw [inside.rest, adds.rest, Shape.leavesAll_append, List.append_assoc]
  opened := by
    obtain ⟨number, record, found, is, saved, root, held, frames⟩ := inside.opened
    have lt : number < middle.draft.records.length := (List.getElem?_eq_some_iff.1 found).1
    exact ⟨number, record, (adds.later.records number lt).trans found, is, saved, root,
      (adds.later.held number lt).trans held, adds.frames.trans frames⟩
  items := by
    obtain ⟨more, items, shapes⟩ := adds.items
    rw [items, List.map_append, Bare.shapes_append, inside.items, shapes]

theorem Inside.returns {stage after : Stage lexed} {marker : Marker} {made : List Shape} (inside : Inside stage marker made after) : Returns stage marker after := by
  obtain ⟨number, record, found, is, saved, root, held, frames⟩ := inside.opened
  refine ⟨inside.later, ⟨number, record, found, is, saved, root, held⟩, ?_⟩
  rw [Page.markers, Page.markers, frames]
  exact List.suffix_cons _ _

/-- What is made in another frame can be taken back as well. -/
theorem Returns.inside {stage middle after : Stage lexed}
    {marker marker' : Marker} {made : List Shape} (returns : Returns stage marker middle)
    (inside : Inside middle marker' made after) : Returns stage marker after := by
  obtain ⟨number, record, found, is, saved, root, held⟩ := returns.opened
  have lt : number < middle.draft.records.length := (List.getElem?_eq_some_iff.1 found).1
  exact ⟨returns.later.trans inside.later,
    ⟨number, record, (inside.later.records number lt).trans found, is, saved, root,
      (inside.later.held number lt).trans held⟩,
    returns.around.trans inside.returns.around⟩

end Stage

/-- The moves of a builder do not change how deep it is. -/
theorem Bench.depth_step {bench after : Bench} {operation : Operation}
    (stepped : bench.step operation = some after) : after.builder.depth = bench.builder.depth := by
  have dropped (marker : Marker) : (bench.builder.drop marker).depth = bench.builder.depth := by
    unfold Builder.drop
    split <;> rfl
  have advanced (builder : Builder) : builder.advance.depth = builder.depth := by
    unfold Builder.advance
    split <;> rfl
  cases operation with
  | mark =>
      cases stepped
      rfl
  | done marker kind | error marker message =>
      obtain ⟨held, -, made⟩ := Option.bind_eq_some_iff.1 stepped
      cases made
      rfl
  | drop marker =>
      obtain ⟨held, -, made⟩ := Option.bind_eq_some_iff.1 stepped
      cases made
      exact dropped held
  | rollback marker =>
      unfold Bench.step at stepped
      dsimp only at stepped
      split at stepped <;> cases stepped <;> rfl
  | precede marker =>
      obtain ⟨held, -, made⟩ := Option.bind_eq_some_iff.1 stepped
      cases made
      rfl
  | keep marker =>
      obtain ⟨held, -, made⟩ := Option.bind_eq_some_iff.1 stepped
      cases made
      rfl
  | advance =>
      cases stepped
      exact advanced _
  | missing message =>
      cases stepped
      rfl
  | advanceError message =>
      cases stepped
      unfold Builder.advanceError
      split
      · rfl
      · exact advanced _

namespace Grammar

open Stage

variable {lexed : Lexed} {α β σ : Type} {stage start : Stage lexed}

/-- The rule ends, and its answer and the stage after it are as is said. -/
def Reaches (rule : ParseM α) (stage : Stage lexed) (post : α → Stage lexed → Prop) : Prop :=
  ∃ answer after, rule stage.parser = some (answer, after.parser) ∧ post answer after

theorem Reaches.bind {first : ParseM α} {next : α → ParseM β} {post : β → Stage lexed → Prop}
    (reached : Reaches first stage fun value middle => Reaches (next value) middle post) :
    Reaches (first >>= next) stage post := by
  obtain ⟨value, middle, ran, answer, after, ran', holds⟩ := reached
  refine ⟨answer, after, ?_, holds⟩
  show (first stage.parser).bind _ = _
  rw [ran]
  exact ran'

theorem Reaches.mono {rule : ParseM α} {post post' : α → Stage lexed → Prop}
    (reached : Reaches rule stage post) (weaker : ∀ answer after, post answer after → post' answer after) :
    Reaches rule stage post' := by
  obtain ⟨answer, after, ran, holds⟩ := reached
  exact ⟨answer, after, ran, weaker answer after holds⟩

theorem reaches_pure {answer : α} {post : α → Stage lexed → Prop} (holds : post answer stage) :
    Reaches (pure answer) stage post :=
  ⟨answer, stage, rfl, holds⟩

/-- One round of a loop; after it the others, if it says to go on, or what comes after the loop. -/
theorem reaches_loop {rule : σ → ParseM (Bool × σ)} {state : σ} {next : σ → ParseM β}
    {post : β → Stage lexed → Prop}
    (reached : Reaches (rule state) stage fun answer middle =>
      Reaches (if answer.1 then loop rule answer.2 >>= next else next answer.2) middle post) :
    Reaches (loop rule state >>= next) stage post := by
  rw [loop_eq, bind_assoc]
  refine .bind (reached.mono fun ⟨goOn, state⟩ middle holds => ?_)
  cases goOn with
  | true => exact holds
  | false => exact holds

/-! ## Looking at tokens -/

theorem nth?_eq (stage : Stage lexed) (n : Nat) :
    stage.parser.builder.nth? n = stage.rest[n]?.map Prod.fst := by
  rw [stage.sees.nth?, Stage.rest, List.getElem?_map, Option.map_map]
  rfl

theorem current?_eq (stage : Stage lexed) :
    stage.parser.builder.current? = stage.rest.head?.map Prod.fst := by
  rw [Builder.current?, nth?_eq, List.head?_eq_getElem?]

theorem reaches_look {view : Builder → α} {post : α → Stage lexed → Prop}
    (holds : post (view stage.parser.builder) stage) : Reaches (look view) stage post :=
  ⟨_, stage, rfl, holds⟩

/-! ## Moves of the builder -/

theorem reaches_withBuilder {change : Builder → α × Builder} {answer : α} {draft : Draft}
    {held : List Held} {builder : Builder} {post : α → Stage lexed → Prop}
    (sees : Sees lexed draft held builder)
    (changed : change stage.parser.builder = (answer, builder))
    (holds : post answer (stage.moved sees)) : Reaches (withBuilder change) stage post := by
  refine ⟨answer, stage.moved sees, ?_, holds⟩
  unfold withBuilder
  dsimp only
  rw [changed]
  rfl

theorem reaches_onBuilder {change : Builder → Builder} {draft : Draft} {held : List Held}
    {builder : Builder} {post : Unit → Stage lexed → Prop} (sees : Sees lexed draft held builder)
    (changed : change stage.parser.builder = builder) (holds : post () (stage.moved sees)) :
    Reaches (onBuilder change) stage post :=
  reaches_withBuilder sees (congrArg (Prod.mk ()) changed) holds

/-- A move of the builder that makes no difference to earlier markers. -/
theorem later_moved {operation : Operation} {draft : Draft} {held : List Held} {builder : Builder}
    (sees : Sees lexed draft held builder)
    (stepped : Bench.step ⟨stage.parser.builder, stage.held⟩ operation = some ⟨builder, held⟩)
    (length : stage.draft.records.length ≤ draft.records.length)
    (records : ∀ marker, marker < stage.draft.records.length →
      draft.records[marker]? = stage.draft.records[marker]?)
    (held' : ∀ marker, marker < stage.draft.records.length → held[marker]? = stage.held[marker]?) :
    Later stage (stage.moved sees) :=
  ⟨length, records, held', congrArg (Place.mk stage.parser.scopes stage.parser.blocks
    stage.parser.strayIndents) (Bench.depth_step stepped)⟩

theorem reaches_mark {post : Marker → Stage lexed → Prop}
    (holds : ∀ marker after, Inside stage marker [] after → after.rest = stage.rest →
      post marker after) : Reaches mark stage post := by
  obtain ⟨held, builder, stepped, sees⟩ := stage.sees.step (rfl : stage.draft.step .mark = _)
  have length := stage.sees.length_held
  have later := later_moved sees stepped
    (by show _ ≤ (stage.draft.records ++ [_]).length; rw [List.length_append]; omega)
    (fun marker lt => List.getElem?_append_left lt)
    (fun marker lt => by
      cases stepped
      exact List.getElem?_append_left (Nat.lt_of_lt_of_eq lt length.symm))
  cases stepped
  refine reaches_withBuilder sees rfl (holds _ _ ⟨later, rfl, ?_, rfl⟩ rfl)
  refine ⟨stage.draft.records.length, ⟨stage.draft.records.length, stage.draft.page, .opened⟩, ?_, rfl,
    rfl, Nat.le_refl _, ?_, rfl⟩
  · exact List.getElem?_concat_length
  · show (stage.held ++ [_])[_]? = _
    rw [← length]
    exact List.getElem?_concat_length

theorem reaches_advance {piece : Piece} {left : List Piece} {post : Unit → Stage lexed → Prop}
    (rest : stage.rest = piece :: left)
    (holds : ∀ after, Adds stage [.token piece] after → after.rest = left → post () after) :
    Reaches advance stage post := by
  obtain ⟨held, builder, stepped, sees⟩ := stage.sees.step (rfl : stage.draft.step .advance = _)
  have later := later_moved sees stepped (Nat.le_refl _) (fun _ _ => rfl)
    (fun marker lt => by cases stepped; rfl)
  cases stepped
  obtain ⟨token, tokens, found, rfl, rest'⟩ := List.map_eq_cons_iff.1 rest
  have next : stage.draft.page.advance =
      { stage.draft.page with rest := tokens, items := stage.draft.page.items ++ [.passed token] } := by
    unfold Page.advance
    rw [found]
    rfl
  have adds : Adds stage [.token token.piece] (stage.moved sees) := by
    refine ⟨later, ?_, ?_, [.passed token], ?_, rfl⟩
    · show stage.draft.page.rest.map Token.piece = [token.piece] ++ stage.draft.page.advance.rest.map _
      rw [next, found]
      rfl
    · show stage.draft.page.advance.frames = _
      rw [next]
    · show stage.draft.page.advance.items = _
      rw [next]
  exact reaches_onBuilder sees rfl (holds _ adds (adds.left rest))

theorem reaches_missing {message : String} {post : Unit → Stage lexed → Prop}
    (holds : ∀ after, Adds stage [.node .error (some message) []] after → after.rest = stage.rest →
      post () after) : Reaches (missing message) stage post := by
  obtain ⟨held, builder, stepped, sees⟩ :=
    stage.sees.step (rfl : stage.draft.step (.missing message) = _)
  have later := later_moved sees stepped (Nat.le_refl _) (fun _ _ => rfl)
    (fun marker lt => by cases stepped; rfl)
  cases stepped
  exact reaches_onBuilder sees rfl (holds _ ⟨later, rfl, rfl, [.missing message], rfl, rfl⟩ rfl)

/-- A change of a marker that was made since some stage makes no difference to earlier ones. -/
theorem later_modify {after : Stage lexed} (later : Later stage after) {operation : Operation}
    {draft : Draft} {held : List Held} {builder : Builder} (sees : Sees lexed draft held builder)
    (stepped : Bench.step ⟨after.parser.builder, after.held⟩ operation = some ⟨builder, held⟩)
    {number : Nat} (new : stage.draft.records.length ≤ number) {change : Record → Record}
    (records : draft.records = after.draft.records.modify number change) {value : Held}
    (held' : held = after.held.set number value) : Later stage (after.moved sees) where
  length := by
    show _ ≤ draft.records.length
    rw [records, List.length_modify]
    exact later.length
  records := by
    intro marker lt
    show draft.records[marker]? = _
    rw [records, List.getElem?_modify_ne _ _ (by omega)]
    exact later.records marker lt
  held := by
    intro marker lt
    show held[marker]? = _
    rw [held', List.getElem?_set_ne (by omega)]
    exact later.held marker lt
  place := (congrArg (Place.mk after.parser.scopes after.parser.blocks after.parser.strayIndents)
    (Bench.depth_step stepped)).trans later.place

/-- What a marker that was opened since some stage is known as. -/
theorem marker?_eq {number : Nat} {marker : Marker}
    (held : stage.held[number]? = some (.marker marker)) :
    Bench.marker? ⟨stage.parser.builder, stage.held⟩ number = some marker := by
  rw [Bench.marker?, held]

variable {marker : Marker} {made : List Shape}

/-- A node is made of what stands inside, by whatever operation does so. -/
theorem reaches_complete (operation : Nat → Operation) (inside : Inside start marker made stage)
    {kind : NodeKind} {message? : Option String} {change : Builder → Builder}
    {post : Unit → Stage lexed → Prop}
    (drawn : ∀ number, stage.draft.step (operation number) =
      stage.draft.complete number kind message?)
    (built : ∀ number, stage.held[number]? = some (.marker marker) →
      ∃ value, Bench.step ⟨stage.parser.builder, stage.held⟩ (operation number) =
        some ⟨change stage.parser.builder, stage.held.set number value⟩)
    (holds : ∀ after, Adds start [.node kind message? made] after → after.rest = stage.rest →
      post () after) : Reaches (onBuilder change) stage post := by
  obtain ⟨number, record, found, is, -, new, held, frames⟩ := inside.opened
  have root := stage.sees.root_le found (by rw [is]; nofun)
  have stepped : stage.draft.step (operation number) = some _ :=
    (drawn number).trans (Draft.complete_eq found is frames kind message?)
  obtain ⟨held', builder, stepped', sees⟩ := stage.sees.step stepped
  obtain ⟨value, built⟩ := built number held
  cases built.symm.trans stepped'
  refine reaches_onBuilder sees rfl (holds _ ⟨?_, inside.rest.trans (by simp; rfl), rfl,
    [.made number kind message? (stage.draft.page.items.map Item.bare)], rfl, ?_⟩ rfl)
  · exact later_modify inside.later sees stepped' (Nat.le_trans new root) rfl rfl
  · show [Shape.node kind message? _] = _
    rw [inside.items]

/-- A node is made of what stands inside. -/
theorem reaches_done (inside : Inside start marker made stage) {kind : NodeKind}
    {post : Unit → Stage lexed → Prop}
    (holds : ∀ after, Adds start [.node kind none made] after → after.rest = stage.rest →
      post () after) : Reaches (done marker kind) stage post :=
  reaches_complete (.done · kind) inside (fun _ => rfl) (fun number held => ⟨_, by
    simp only [Bench.step, marker?_eq held, Option.bind_eq_bind, Option.bind_some]
    rfl⟩) holds

/-- An error node is made of what stands inside. -/
theorem reaches_fault (inside : Inside start marker made stage) {message : String}
    {post : Unit → Stage lexed → Prop}
    (holds : ∀ after, Adds start [.node .error (some message) made] after →
      after.rest = stage.rest → post () after) : Reaches (fault marker message) stage post :=
  reaches_complete (.error · message) inside (fun _ => rfl) (fun number held => ⟨_, by
    simp only [Bench.step, marker?_eq held, Option.bind_eq_bind, Option.bind_some]
    rfl⟩) holds

/-- The next token is put into an error node. -/
theorem reaches_advanceError {piece : Piece} {left : List Piece} {message : String}
    {post : Unit → Stage lexed → Prop} (rest : stage.rest = piece :: left)
    (holds : ∀ after, Adds stage [.node .error (some message) [.token piece]] after →
      after.rest = left → post () after) : Reaches (advanceError message) stage post := by
  have steps : Reaches (do
      let junk ← mark
      advance
      fault junk message) stage post := by
    refine .bind (reaches_mark fun junk opened inside same => ?_)
    refine .bind (reaches_advance (same.trans rest) fun passed adds left' => ?_)
    exact reaches_fault (inside.adds adds) fun after adds' same' => holds after adds' (same'.trans left')
  obtain ⟨answer, after, ran, holds⟩ := steps
  refine ⟨answer, after, ran ▸ ?_, holds⟩
  have more : stage.parser.builder.atEnd = false := by
    rw [stage.sees.atEnd, ← List.isEmpty_map, show stage.draft.page.rest.map Token.piece = _ from rest]
    rfl
  unfold advanceError Builder.advanceError onBuilder withBuilder
  dsimp only
  rw [if_neg (by rw [more]; exact Bool.false_ne_true)]
  rfl

/-- What stands inside is left to the frame around it. -/
theorem reaches_drop (inside : Inside start marker made stage) {post : Unit → Stage lexed → Prop}
    (holds : ∀ after, Adds start made after → after.rest = stage.rest → post () after) :
    Reaches (drop marker) stage post := by
  obtain ⟨number, record, found, is, -, new, held, frames⟩ := inside.opened
  have root := stage.sees.root_le found (by rw [is]; nofun)
  have stepped : stage.draft.step (.drop number) = some _ := Draft.drop_eq found is frames
  obtain ⟨held', builder, stepped', sees⟩ := stage.sees.step stepped
  have made' := stepped'
  simp only [Bench.step, marker?_eq held, Option.bind_eq_bind, Option.bind_some] at made'
  cases made'
  refine reaches_onBuilder sees rfl (holds _ ⟨?_, inside.rest, rfl,
    stage.draft.page.items, rfl, inside.items⟩ rfl)
  exact later_modify inside.later sees stepped' (Nat.le_trans new root) rfl rfl

/-- Everything is as it was before the mark, whatever else was opened since. -/
theorem reaches_takeBack (returns : Returns start marker stage) {post : Unit → Stage lexed → Prop}
    (holds : ∀ after, Adds start [] after → after.rest = start.rest → post () after) :
    Reaches (rollback marker) stage post := by
  obtain ⟨number, record, found, is, saved, new, held⟩ := returns.opened
  have live : record.status ≠ .spent := by rw [is]; nofun
  have root := stage.sees.root_le found live
  have open' : record.saved.markers <:+ stage.draft.page.markers := by
    rw [saved]
    exact returns.around
  have stepped : stage.draft.step (.rollback number) = some _ :=
    Draft.rollback_eq found live open'
  obtain ⟨held', builder, stepped', sees⟩ := stage.sees.step stepped
  have made' := stepped'
  simp only [Bench.step, held] at made'
  cases made'
  have short : number < stage.draft.records.length := (List.getElem?_eq_some_iff.1 found).1
  have rest : (stage.moved sees).rest = start.rest := by
    show record.saved.rest.map _ = _
    rw [saved]
    rfl
  refine reaches_onBuilder sees rfl (holds _ ⟨⟨?_, ?_, ?_, ?_⟩, rest.symm, ?_, [], ?_, rfl⟩ rest)
  · show _ ≤ (stage.draft.records.take record.root ++ _).length
    rw [List.length_append, List.length_take, List.length_map, List.length_drop]
    omega
  · intro marker lt
    show (stage.draft.records.take record.root ++ _)[marker]? = _
    rw [List.getElem?_append_left (by rw [List.length_take]; omega),
      List.getElem?_take_of_lt (by omega)]
    exact returns.later.records marker lt
  · intro marker lt
    show (stage.held.set number _)[marker]? = _
    rw [List.getElem?_set_ne (by omega)]
    exact returns.later.held marker lt
  · exact (congrArg (Place.mk stage.parser.scopes stage.parser.blocks stage.parser.strayIndents)
      (Bench.depth_step stepped')).trans returns.later.place
  · show record.saved.frames = _
    rw [saved]
  · show record.saved.items = _
    rw [saved, List.append_nil]

/-- Everything is as it was before the mark. -/
theorem reaches_rollback (inside : Inside start marker made stage)
    {post : Unit → Stage lexed → Prop}
    (holds : ∀ after, Adds start [] after → after.rest = start.rest → post () after) :
    Reaches (rollback marker) stage post :=
  reaches_takeBack inside.returns holds

/-- A node is made of what stands inside, and a frame is opened around it. -/
theorem reaches_wrap (inside : Inside start marker made stage) {kind : NodeKind}
    {post : Marker → Stage lexed → Prop}
    (holds : ∀ wrapper after, Inside start wrapper [.node kind none made] after →
      after.rest = stage.rest → post wrapper after) : Reaches (wrap marker kind) stage post := by
  obtain ⟨number, record, found, is, saved, new, held, frames⟩ := inside.opened
  have root := stage.sees.root_le found (by rw [is]; nofun)
  -- The node is made first.
  have stepped : stage.draft.step (.done number kind) = some _ :=
    Draft.complete_eq found is frames kind none
  obtain ⟨held', builder, stepped', sees⟩ := stage.sees.step stepped
  have made' := stepped'
  simp only [Bench.step, marker?_eq held, Option.bind_eq_bind, Option.bind_some] at made'
  cases made'
  have later := later_modify inside.later sees stepped' (Nat.le_trans new root) rfl rfl
  -- Nothing else on the page was made with that marker.
  have away : ∀ item ∈ start.draft.page.items, item.isMadeWith number = false := by
    intro item mem
    cases same : item.isMadeWith number with
    | false => rfl
    | true =>
        have old := start.sees.lt_of_holds (.inl ⟨item, mem, same⟩)
        omega
  let finished : Draft := ⟨{ stage.draft.page with
      items := start.draft.page.items ++
        [.made number kind none (stage.draft.page.items.map Item.bare)]
      frames := start.draft.page.frames },
    stage.draft.records.modify number ({ · with status := .made })⟩
  have found' : finished.records[number]? = some { record with status := .made } := by
    show (stage.draft.records.modify number _)[number]? = _
    rw [List.getElem?_modify_eq, found]
    rfl
  have again : finished.step (.precede number) = some _ := Draft.precede_eq found' rfl rfl away
  obtain ⟨held'', builder', stepped'', sees'⟩ := sees.step again
  have short : number < stage.held.length := (List.getElem?_eq_some_iff.1 held).1
  have completed : Bench.completed? ⟨(stage.parser.builder.done marker kind).2,
      stage.held.set number (.completed (stage.parser.builder.done marker kind).1)⟩ number =
        some (stage.parser.builder.done marker kind).1 := by
    rw [Bench.completed?, List.getElem?_set_self short]
  have wrapped := stepped''
  simp only [Bench.step, completed, Option.bind_eq_bind, Option.bind_some] at wrapped
  cases wrapped
  have length : finished.records.length = stage.draft.records.length := List.length_modify _ _ _
  have length' := stage.sees.length_held
  have newer := later.length
  change start.draft.records.length ≤ finished.records.length at newer
  refine reaches_withBuilder sees' rfl (holds _ _ ⟨⟨?_, ?_, ?_, ?_⟩,
    inside.rest.trans (by simp; rfl), ?_, ?_⟩ rfl)
  · show _ ≤ (finished.records.modify number _ ++ [_]).length
    rw [List.length_append, List.length_modify]
    exact Nat.le_succ_of_le newer
  · intro marker lt
    show (finished.records.modify number _ ++ [_])[marker]? = _
    rw [List.getElem?_append_left (by rw [List.length_modify]; omega),
      List.getElem?_modify_ne _ _ (by omega)]
    exact later.records marker lt
  · intro marker lt
    show ((stage.held.set number _).set number _ ++ [_])[marker]? = _
    rw [List.getElem?_append_left (by rw [List.length_set, List.length_set]; omega),
      List.getElem?_set_ne (by omega)]
    exact later.held marker lt
  · exact (congrArg (Place.mk stage.parser.scopes stage.parser.blocks stage.parser.strayIndents)
      ((Bench.depth_step stepped'').trans (Bench.depth_step stepped'))).trans inside.later.place
  · refine ⟨finished.records.length, { record with status := .opened }, ?_, rfl, saved, new, ?_, rfl⟩
    · show (finished.records.modify number _ ++ [_])[_]? = _
      rw [Follows.getElem?_concat, if_pos (List.length_modify _ _ _).symm]
    · show ((stage.held.set number _).set number _ ++ [_])[_]? = _
      rw [Follows.getElem?_concat, List.length_set, List.length_set, length, length', if_pos rfl]
      rfl
  · show [Shape.node kind none _] = _
    rw [inside.items]

end Grammar
end StarlarkSyntax
