import StarlarkSyntax.Grammar.Expression
import StarlarkSyntax.Proofs.Grammar.Stage
/-!
# Rules that read shapes

A rule that answers with a truth value `Reads` a shape if it adds just that shape wherever the leaves
of the shape come next, provided that what follows them cannot go on with it and that there are
enough levels of nesting left; more generally, it may do so at places of some sort (`ReadsWhere`). It
`Declines` where nothing comes that could begin what it looks for.

The combinators of the grammar are treated here, one lemma for each way that they can go.
-/

set_option autoImplicit false

namespace StarlarkSyntax

open Layout (Piece)
open Stage (Inside Adds)

/-- The kind of the next of some tokens. -/
def nextKind (left : List Piece) : Option Kind := left.head?.map Prod.fst

/-- The kind of the token after the next one. -/
def secondKind (left : List Piece) : Option Kind := nextKind left.tail

@[simp] theorem nextKind_cons (piece : Piece) (left : List Piece) :
    nextKind (piece :: left) = some piece.1 := rfl

@[simp] theorem nextKind_nil : nextKind [] = none := rfl

@[simp] theorem secondKind_cons (piece : Piece) (left : List Piece) :
    secondKind (piece :: left) = nextKind left := rfl

namespace Grammar

variable {lexed : Lexed} {α β σ ι : Type} {stage start : Stage lexed} {made : List Shape}
  {left : List Piece} {marker : Marker}

/-- The rule answers with something and adds some shapes. -/
def Gives (rule : ParseM α) (stage : Stage lexed) (answer : α) (made : List Shape) : Prop :=
  Reaches rule stage fun given after => given = answer ∧ Adds stage made after

theorem Gives.andThen {first : ParseM α} {next : α → ParseM β} {value : α}
    {post : β → Stage lexed → Prop} (gives : Gives first stage value made)
    (reached : ∀ after, Adds stage made after → Reaches (next value) after post) :
    Reaches (first >>= next) stage post := by
  refine .bind (gives.mono fun _ after holds => ?_)
  obtain ⟨rfl, adds⟩ := holds
  exact reached after adds

theorem Gives.bind {first : ParseM α} {next : α → ParseM β} {value : α}
    {post : β → Stage lexed → Prop} (gives : Gives first stage value made)
    (rest : stage.rest = Shape.leavesAll made ++ left)
    (reached : ∀ after, Adds stage made after → after.rest = left →
      Reaches (next value) after post) : Reaches (first >>= next) stage post :=
  gives.andThen fun after adds => reached after adds (adds.left rest)

theorem Gives.bindShape {first : ParseM α} {next : α → ParseM β} {value : α} {shape : Shape}
    {post : β → Stage lexed → Prop} (gives : Gives first stage value [shape])
    (rest : stage.rest = shape.leaves ++ left)
    (reached : ∀ after, Adds stage [shape] after → after.rest = left →
      Reaches (next value) after post) : Reaches (first >>= next) stage post :=
  gives.bind (by rw [rest]; simp) reached

theorem gives_pure (answer : α) (stage : Stage lexed) : Gives (pure answer) stage answer [] :=
  reaches_pure ⟨rfl, .refl stage⟩

/-! ## Looking at tokens -/

theorem reaches_current? {post : Option Kind → Stage lexed → Prop} (rest : stage.rest = left)
    (holds : post (nextKind left) stage) : Reaches current? stage post := by
  refine reaches_look ?_
  rw [current?_eq, rest]
  exact holds

theorem reaches_isAt {kind : Kind} {answer : Bool} {post : Bool → Stage lexed → Prop}
    (rest : stage.rest = left) (is : (nextKind left == some kind) = answer)
    (holds : post answer stage) : Reaches (isAt kind) stage post := by
  refine reaches_look ?_
  rw [Builder.isAt, current?_eq, rest, show left.head?.map Prod.fst = nextKind left from rfl, is]
  exact holds

theorem reaches_isAtAny {kinds : List Kind} {answer : Bool} {post : Bool → Stage lexed → Prop}
    (rest : stage.rest = left) (is : (nextKind left).any kinds.contains = answer)
    (holds : post answer stage) : Reaches (isAtAny kinds) stage post := by
  refine reaches_look ?_
  rw [Builder.isAtAny, current?_eq, rest, show left.head?.map Prod.fst = nextKind left from rfl, is]
  exact holds

theorem reaches_atEnd {answer : Bool} {post : Bool → Stage lexed → Prop}
    (rest : stage.rest = left) (is : left.isEmpty = answer) (holds : post answer stage) :
    Reaches atEnd stage post := by
  refine reaches_look ?_
  rw [stage.sees.atEnd, ← List.isEmpty_map, show stage.draft.page.rest.map Token.piece = left from rest,
    is]
  exact holds

/-! ## Passing tokens -/

theorem isAt_eq (rest : stage.rest = left) (kind : Kind) :
    stage.parser.builder.isAt kind = (nextKind left == some kind) := by
  rw [Builder.isAt, current?_eq, rest]
  rfl

/-- A move that advances the builder and answers with something. -/
theorem reaches_passing {change : Builder → Bool × Builder} {piece : Piece} {answer : Bool}
    {post : Bool → Stage lexed → Prop} (rest : stage.rest = piece :: left)
    (changed : change stage.parser.builder = (answer, stage.parser.builder.advance))
    (holds : ∀ after, Adds stage [.token piece] after → after.rest = left → post answer after) :
    Reaches (withBuilder change) stage post := by
  have advanced : Reaches advance stage fun _ after => post answer after :=
    reaches_advance rest holds
  obtain ⟨⟨⟩, after, ran, holds⟩ := advanced
  refine ⟨answer, after, ?_, holds⟩
  unfold withBuilder
  dsimp only
  rw [changed]
  exact congrArg (fun ran => ran.map fun after => (answer, after.2)) ran

theorem reaches_matches {piece : Piece} {kind : Kind} {post : Bool → Stage lexed → Prop}
    (rest : stage.rest = piece :: left) (is : piece.1 = kind)
    (holds : ∀ after, Adds stage [.token piece] after → after.rest = left → post true after) :
    Reaches (matches? kind) stage post := by
  refine reaches_passing rest ?_ holds
  rw [Builder.matches?, isAt_eq rest, nextKind_cons, is, beq_self_eq_true, if_pos rfl]

theorem reaches_matches_not {kind : Kind} {post : Bool → Stage lexed → Prop}
    (rest : stage.rest = left) (is : (nextKind left == some kind) = false)
    (holds : post false stage) : Reaches (matches? kind) stage post := by
  refine ⟨false, stage, ?_, holds⟩
  unfold matches? withBuilder
  dsimp only
  rw [Builder.matches?, isAt_eq rest, is]
  rfl

theorem reaches_expect {piece : Piece} {kind : Kind} {message : String}
    {post : Bool → Stage lexed → Prop} (rest : stage.rest = piece :: left) (is : piece.1 = kind)
    (holds : ∀ after, Adds stage [.token piece] after → after.rest = left → post true after) :
    Reaches (expect kind message) stage post := by
  refine reaches_passing rest ?_ holds
  rw [Builder.expect, isAt_eq rest, nextKind_cons, is, beq_self_eq_true, if_pos rfl]

theorem gives_tokenNode {piece : Piece} (rest : stage.rest = piece :: left) (kind : NodeKind) :
    Gives (tokenNode kind) stage () [.node kind none [.token piece]] := by
  refine Reaches.bind (reaches_mark fun marker _ inside same => ?_)
  refine Reaches.bind (reaches_advance (same.trans rest) fun _ adds _ => ?_)
  exact reaches_done (inside.adds adds) fun _ adds _ => ⟨rfl, adds⟩

theorem gives_emptyNode (stage : Stage lexed) (kind : NodeKind) :
    Gives (emptyNode kind) stage () [.node kind none []] :=
  Reaches.bind (reaches_mark fun _ _ inside _ => reaches_done inside fun _ adds _ => ⟨rfl, adds⟩)

theorem Gives.require {rule : ParseM Bool} (gives : Gives rule stage true made)
    (message : String) : Gives (require message rule) stage () made := by
  refine Reaches.bind (gives.mono fun _ after holds => ?_)
  obtain ⟨rfl, adds⟩ := holds
  exact reaches_pure ⟨rfl, adds⟩

/-! ## Nesting -/

theorem run_bind (first : ParseM α) (next : α → ParseM β) (parser : Parser) :
    (first >>= next) parser = (first parser).bind fun ran => next ran.1 ran.2 := rfl

/-- The same stage one level deeper. -/
def deeper (stage : Stage lexed) : Stage lexed :=
  stage.placed { stage.place with depth := stage.place.depth + 1 }

theorem Gives.nest {rule : ParseM Bool} {answer : Bool}
    (deep : stage.place.depth + 1 ≤ Builder.maxDepth) (gives : Gives rule (deeper stage) answer made) :
    Gives (nest rule) stage answer made := by
  obtain ⟨_, after, ran, rfl, adds⟩ := gives
  refine ⟨_, after.placed stage.place, ?_, rfl, adds.placed⟩
  have shallow : ¬Builder.maxDepth ≤ stage.parser.builder.depth := Nat.not_le.2 deep
  have entered : withBuilder Builder.enter stage.parser = some (true, (deeper stage).parser) := by
    unfold withBuilder Builder.enter
    dsimp only
    rw [if_neg shallow]
    rfl
  have place : after.place = (deeper stage).place := adds.later.place
  have leave : onBuilder Builder.exit after.parser = some ((), (after.placed stage.place).parser) := by
    show some ((), Parser.mk after.parser.builder.exit after.place.scopes after.place.blocks
      after.place.strayIndents) = _
    rw [place, Builder.exit, show after.parser.builder.depth = stage.place.depth + 1 from
      congrArg Place.depth place]
    rfl
  unfold Grammar.nest
  rw [run_bind, entered, Option.bind_some, if_pos rfl, run_bind, ran, Option.bind_some, run_bind,
    leave]
  rfl

/-! ## Reading one shape -/

/-- The rule reads the shape wherever it may be followed by what comes after it, if so many levels of
nesting are left. -/
def Reads (rule : ParseM Bool) (levels : Nat) (shape : Shape) (follows : List Piece → Prop) : Prop :=
  ∀ ⦃lexed : Lexed⦄ (stage : Stage lexed) (left : List Piece), stage.rest = shape.leaves ++ left →
    follows left → stage.place.depth + levels ≤ Builder.maxDepth → Gives rule stage true [shape]

/-- The rule finds nothing where what comes next is as is said. -/
def Declines (rule : ParseM Bool) (levels : Nat) (absent : List Piece → Prop) : Prop :=
  ∀ ⦃lexed : Lexed⦄ (stage : Stage lexed), absent stage.rest →
    stage.place.depth + levels ≤ Builder.maxDepth → Gives rule stage false []

/-- The rule makes the shape wherever its leaves come next, whatever follows them. -/
def Makes (rule : ParseM Unit) (levels : Nat) (shape : Shape) : Prop :=
  ∀ ⦃lexed : Lexed⦄ (stage : Stage lexed) (left : List Piece), stage.rest = shape.leaves ++ left →
    stage.place.depth + levels ≤ Builder.maxDepth → Gives rule stage () [shape]

theorem Makes.reads {rule : ParseM Unit} {levels : Nat} {shape : Shape}
    (makes : Makes rule levels shape) :
    Reads (do rule; pure true) levels shape (fun _ => True) := fun _ stage left rest _ deep =>
  (makes stage left rest deep).andThen fun _ adds => reaches_pure ⟨rfl, adds⟩

theorem Reads.weaken {rule : ParseM Bool} {levels levels' : Nat} {shape : Shape}
    {follows follows' : List Piece → Prop} (reads : Reads rule levels shape follows)
    (le : levels ≤ levels') (stronger : ∀ left, follows' left → follows left) :
    Reads rule levels' shape follows' :=
  fun _ stage left rest follow deep => reads stage left rest (stronger left follow) (by omega)

/-- Are so many levels of nesting left at a place? -/
def Shallow (levels : Nat) (place : Place) : Prop := place.depth + levels ≤ Builder.maxDepth

/-- The rule reads the shape at places of some sort, wherever it may be followed by what comes after
it. -/
def ReadsWhere (holds : Place → Prop) (rule : ParseM Bool) (shape : Shape)
    (follows : List Piece → Prop) : Prop :=
  ∀ ⦃lexed : Lexed⦄ (stage : Stage lexed) (left : List Piece), stage.rest = shape.leaves ++ left →
    follows left → holds stage.place → Gives rule stage true [shape]

theorem reads_iff {rule : ParseM Bool} {levels : Nat} {shape : Shape} {follows : List Piece → Prop} :
    Reads rule levels shape follows ↔ ReadsWhere (Shallow levels) rule shape follows := .rfl

namespace ReadsWhere

variable {holds holds' : Place → Prop} {rule : ParseM Bool} {shape : Shape}
  {follows follows' : List Piece → Prop} {post : α → Stage lexed → Prop}

theorem weaken (reads : ReadsWhere holds rule shape follows)
    (stronger : ∀ left, follows' left → follows left) : ReadsWhere holds rule shape follows' :=
  fun _ stage left rest follow here => reads stage left rest (stronger left follow) here

theorem bind {next : Bool → ParseM α} (reads : ReadsWhere holds rule shape follows)
    (rest : stage.rest = shape.leaves ++ left) (follow : follows left) (here : holds stage.place)
    (reached : ∀ after, Adds stage [shape] after → after.rest = left →
      Reaches (next true) after post) : Reaches (rule >>= next) stage post :=
  (reads stage left rest follow here).bindShape rest reached

theorem require {message : String} {next : Unit → ParseM α}
    (reads : ReadsWhere holds rule shape follows) (rest : stage.rest = shape.leaves ++ left)
    (follow : follows left) (here : holds stage.place)
    (reached : ∀ after, Adds stage [shape] after → after.rest = left →
      Reaches (next ()) after post) : Reaches (Grammar.require message rule >>= next) stage post :=
  ((reads stage left rest follow here).require message).bindShape rest reached

theorem nest (reads : ReadsWhere holds rule shape follows)
    (enters : ∀ place, holds' place →
      place.depth + 1 ≤ Builder.maxDepth ∧ holds { place with depth := place.depth + 1 }) :
    ReadsWhere holds' (Grammar.nest rule) shape follows := fun _ stage left rest follow here =>
  (reads (deeper stage) left rest follow (enters stage.place here).2).nest (enters stage.place here).1

end ReadsWhere

theorem Reads.bind {rule : ParseM Bool} {levels : Nat} {shape : Shape}
    {follows : List Piece → Prop} {next : Bool → ParseM α} {post : α → Stage lexed → Prop}
    (reads : Reads rule levels shape follows) (rest : stage.rest = shape.leaves ++ left)
    (follow : follows left) (deep : stage.place.depth + levels ≤ Builder.maxDepth)
    (reached : ∀ after, Adds stage [shape] after → after.rest = left →
      Reaches (next true) after post) : Reaches (rule >>= next) stage post :=
  (reads_iff.1 reads).bind rest follow deep reached

theorem Reads.require {rule : ParseM Bool} {levels : Nat} {shape : Shape} {message : String}
    {follows : List Piece → Prop} {next : Unit → ParseM α} {post : α → Stage lexed → Prop}
    (reads : Reads rule levels shape follows) (rest : stage.rest = shape.leaves ++ left)
    (follow : follows left) (deep : stage.place.depth + levels ≤ Builder.maxDepth)
    (reached : ∀ after, Adds stage [shape] after → after.rest = left →
      Reaches (next ()) after post) : Reaches (require message rule >>= next) stage post :=
  (reads_iff.1 reads).require rest follow deep reached

theorem Declines.weaken {rule : ParseM Bool} {levels levels' : Nat} {absent : List Piece → Prop}
    (declines : Declines rule levels absent) (le : levels ≤ levels') : Declines rule levels' absent :=
  fun _ stage nothing deep => declines stage nothing (by omega)

theorem Declines.bind {rule : ParseM Bool} {levels : Nat} {absent : List Piece → Prop}
    {next : Bool → ParseM α} {post : α → Stage lexed → Prop} (declines : Declines rule levels absent)
    (rest : stage.rest = left) (nothing : absent left)
    (deep : stage.place.depth + levels ≤ Builder.maxDepth)
    (reached : ∀ after, Adds stage [] after → after.rest = left → Reaches (next false) after post) :
    Reaches (rule >>= next) stage post :=
  (declines stage (rest ▸ nothing) deep).bind rest reached

theorem Reads.nest {rule : ParseM Bool} {levels : Nat} {shape : Shape}
    {follows : List Piece → Prop} (reads : Reads rule levels shape follows) :
    Reads (nest rule) (levels + 1) shape follows :=
  reads_iff.2 ((reads_iff.1 reads).nest fun place deep => by
    simp only [Shallow] at deep ⊢
    omega)

theorem Declines.nest {rule : ParseM Bool} {levels : Nat} {absent : List Piece → Prop}
    (declines : Declines rule levels absent) : Declines (nest rule) (levels + 1) absent :=
  fun _ stage nothing deep => Gives.nest (by omega) (declines (deeper stage) nothing
    (by show stage.place.depth + 1 + levels ≤ _; omega))

/-! ## Repetition -/

/-- A round of a loop that is not the last. -/
theorem gives_loop_next {rule : σ → ParseM (Bool × σ)} {state next last : σ} {more : List Shape}
    (gives : Gives (rule state) stage (true, next) made)
    (rest : ∀ after, Adds stage made after → Gives (loop rule next) after last more) :
    Gives (loop rule state) stage last (made ++ more) := by
  rw [← bind_pure (loop _ _)]
  refine reaches_loop (gives.mono fun _ middle holds => ?_)
  obtain ⟨rfl, adds⟩ := holds
  exact (rest middle adds).andThen fun after adds' => reaches_pure ⟨rfl, adds.trans adds'⟩

/-- The last round of a loop. -/
theorem gives_loop_end {rule : σ → ParseM (Bool × σ)} {state state' : σ}
    (gives : Gives (rule state) stage (false, state') made) :
    Gives (loop rule state) stage state' made := by
  rw [← bind_pure (loop _ _)]
  refine reaches_loop (gives.mono fun _ after holds => ?_)
  obtain ⟨rfl, adds⟩ := holds
  exact reaches_pure ⟨rfl, adds⟩

/-- A loop reads the shapes of some items one after the other, as long as its state stays the same,
and then whatever it reads where they end. -/
theorem gives_loop_append {rule : σ → ParseM (Bool × σ)} {state : σ} {shapes : ι → List Shape}
    {place : Place} {follows : List Piece → Prop} (items : List ι) (here : stage.place = place)
    (rest : stage.rest = Shape.leavesAll (items.flatMap shapes) ++ left)
    (next : ∀ item ∈ items, ∀ left, follows (Shape.leavesAll (shapes item) ++ left))
    (last : follows left)
    (each : ∀ item ∈ items, ∀ (stage : Stage lexed) left, stage.place = place →
      stage.rest = Shape.leavesAll (shapes item) ++ left → follows left →
      Gives (rule state) stage (true, state) (shapes item))
    (ends : ∀ stage : Stage lexed, stage.place = place → stage.rest = left →
      Gives (loop rule state) stage state made) :
    Gives (loop rule state) stage state (items.flatMap shapes ++ made) := by
  induction items generalizing stage with
  | nil => exact ends stage here rest
  | cons item items ih =>
      rw [List.flatMap_cons, Shape.leavesAll_append, List.append_assoc] at rest
      have follow : follows (Shape.leavesAll (items.flatMap shapes) ++ left) := by
        cases items with
        | nil => exact last
        | cons other items =>
            rw [List.flatMap_cons, Shape.leavesAll_append, List.append_assoc]
            exact next other (by simp) _
      rw [List.flatMap_cons, List.append_assoc]
      refine gives_loop_next (each item List.mem_cons_self stage _ here rest follow) fun after adds => ?_
      exact ih (adds.later.place.trans here) (adds.left rest)
        (fun item mem => next item (List.mem_cons_of_mem _ mem))
        (fun item mem => each item (List.mem_cons_of_mem _ mem))

/-- A loop reads the shapes of some items one after the other, as long as its state stays the same. -/
theorem gives_loop {rule : σ → ParseM (Bool × σ)} {state : σ} {shapes : ι → List Shape}
    {place : Place} {follows : List Piece → Prop} (items : List ι) (here : stage.place = place)
    (rest : stage.rest = Shape.leavesAll (items.flatMap shapes) ++ left)
    (next : ∀ item ∈ items, ∀ left, follows (Shape.leavesAll (shapes item) ++ left))
    (last : follows left)
    (each : ∀ item ∈ items, ∀ (stage : Stage lexed) left, stage.place = place →
      stage.rest = Shape.leavesAll (shapes item) ++ left → follows left →
      Gives (rule state) stage (true, state) (shapes item))
    (ends : ∀ stage : Stage lexed, stage.place = place → stage.rest = left →
      Gives (rule state) stage (false, state) []) :
    Gives (loop rule state) stage state (items.flatMap shapes) := by
  rw [← List.append_nil (items.flatMap shapes)]
  exact gives_loop_append items here rest next last each
    fun stage here rest => gives_loop_end (ends stage here rest)

/-- A round of a rule that is repeated. -/
theorem Gives.round {rule : ParseM Bool} {answer : Bool} (gives : Gives rule stage answer made) :
    Gives (do pure (← rule, ())) stage (answer, ()) made :=
  gives.andThen fun _ adds => reaches_pure ⟨rfl, adds⟩

/-- A round of a rule that is repeated that is not the last. -/
theorem gives_repeatWhile_next {rule : ParseM Bool} {more : List Shape}
    (gives : Gives rule stage true made)
    (rest : ∀ after, Adds stage made after → Gives (repeatWhile rule) after () more) :
    Gives (repeatWhile rule) stage () (made ++ more) :=
  gives_loop_next gives.round rest

/-- The last round of a rule that is repeated. -/
theorem gives_repeatWhile_end {rule : ParseM Bool} (gives : Gives rule stage false made) :
    Gives (repeatWhile rule) stage () made :=
  gives_loop_end gives.round

/-- A rule that is repeated reads the shapes of some items one after the other, and then whatever it
reads where they end. -/
theorem gives_repeatWhile_append {rule : ParseM Bool} {shapes : ι → List Shape} {place : Place}
    {follows : List Piece → Prop} (items : List ι) (here : stage.place = place)
    (rest : stage.rest = Shape.leavesAll (items.flatMap shapes) ++ left)
    (next : ∀ item ∈ items, ∀ left, follows (Shape.leavesAll (shapes item) ++ left))
    (last : follows left)
    (each : ∀ item ∈ items, ∀ (stage : Stage lexed) left, stage.place = place →
      stage.rest = Shape.leavesAll (shapes item) ++ left → follows left →
      Gives rule stage true (shapes item))
    (ends : ∀ stage : Stage lexed, stage.place = place → stage.rest = left →
      Gives (repeatWhile rule) stage () made) :
    Gives (repeatWhile rule) stage () (items.flatMap shapes ++ made) :=
  gives_loop_append items here rest next last
    (fun item mem stage left here rest follow => (each item mem stage left here rest follow).round)
    ends

/-- A rule that is repeated reads the shapes of some items one after the other. -/
theorem gives_repeatWhile {rule : ParseM Bool} {shapes : ι → List Shape} {place : Place}
    {follows : List Piece → Prop} (items : List ι) (here : stage.place = place)
    (rest : stage.rest = Shape.leavesAll (items.flatMap shapes) ++ left)
    (next : ∀ item ∈ items, ∀ left, follows (Shape.leavesAll (shapes item) ++ left))
    (last : follows left)
    (each : ∀ item ∈ items, ∀ (stage : Stage lexed) left, stage.place = place →
      stage.rest = Shape.leavesAll (shapes item) ++ left → follows left →
      Gives rule stage true (shapes item))
    (ends : ∀ stage : Stage lexed, stage.place = place → stage.rest = left →
      Gives rule stage false []) : Gives (repeatWhile rule) stage () (items.flatMap shapes) := by
  rw [← List.append_nil (items.flatMap shapes)]
  exact gives_repeatWhile_append items here rest next last each
    fun stage here rest => gives_repeatWhile_end (ends stage here rest)

end Grammar
end StarlarkSyntax
