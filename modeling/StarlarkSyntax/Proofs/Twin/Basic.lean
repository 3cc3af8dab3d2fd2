import StarlarkSyntax.Proofs.Grammar.Reading
/-!
# Two readings side by side

The same rule is followed in two texts at once. A `Twin` is a stage in each of them: the tokens that
come next are the same in both, up to a tail that each text has of its own, and the rules stand in the
same place. A rule goes `Abreast` if, whenever it comes to an end in the first text, it does so in the
second one as well, and a twin of the two stages after it is as is said.

What a rule adds to one text it adds to the other: `Since` and `Begun` say of both what `Adds` and
`Inside` say of one stage, except that they leave open where the rules stand.

A twin of a stage and itself says what the rule does in a single text.
-/

set_option autoImplicit false

namespace StarlarkSyntax

open Layout (Piece)
open Stage (Adds Inside Returns)

namespace Stage

variable {lexed : Lexed} {stage after : Stage lexed} {made : List Shape} {marker : Marker}

/-- Where the rules stand makes no difference to what was added. -/
theorem Adds.replaced (adds : Adds stage made (after.placed stage.place)) (place : Place) :
    Adds (stage.placed place) made (after.placed place) :=
  ⟨⟨adds.later.length, adds.later.records, adds.later.held, rfl⟩, adds.rest, adds.frames, adds.items⟩

/-- Nor to what stands in a frame. -/
theorem Inside.replaced (inside : Inside stage marker made (after.placed stage.place))
    (place : Place) : Inside (stage.placed place) marker made (after.placed place) :=
  ⟨⟨inside.later.length, inside.later.records, inside.later.held, rfl⟩, inside.rest, inside.opened,
    inside.items⟩

theorem Inside.placed {place : Place} (inside : Inside (stage.placed place) marker made after) :
    Inside stage marker made (after.placed stage.place) :=
  ⟨⟨inside.later.length, inside.later.records, inside.later.held, rfl⟩, inside.rest, inside.opened,
    inside.items⟩

end Stage

/-- Two texts, and the tokens at the end of each of them that need not be the same. -/
structure Pair where
  left : Lexed
  right : Lexed
  leftTail : List Piece := []
  rightTail : List Piece := []

/-- A stage in each of two texts, with the same tokens ahead. -/
structure Twin (pair : Pair) where
  left : Stage pair.left
  right : Stage pair.right
  ahead : List Piece
  leftRest : left.rest = ahead ++ pair.leftTail
  rightRest : right.rest = ahead ++ pair.rightTail
  together : right.place = left.place

namespace Twin

variable {pair : Pair} {start twin middle after : Twin pair} {made made' : List Shape}
  {marker marker' : Marker}

/-- Where the rules stand in both texts. -/
def place (twin : Twin pair) : Place := twin.left.place

/-- The same twin with the rules in another place. -/
def placed (twin : Twin pair) (place : Place) : Twin pair where
  left := twin.left.placed place
  right := twin.right.placed place
  ahead := twin.ahead
  leftRest := twin.leftRest
  rightRest := twin.rightRest
  together := rfl

/-- The kind of the next token of both texts. -/
def next? (twin : Twin pair) : Option Kind := nextKind twin.ahead

theorem next?_congr (same : after.ahead = twin.ahead) : after.next? = twin.next? :=
  congrArg nextKind same

@[simp] theorem place_placed (twin : Twin pair) (place : Place) :
    (twin.placed place).place = place := rfl

@[simp] theorem ahead_placed (twin : Twin pair) (place : Place) :
    (twin.placed place).ahead = twin.ahead := rfl

/-- Something was added in both texts since some twin. -/
structure Since (start : Twin pair) (made : List Shape) (after : Twin pair) : Prop where
  left : Adds start.left made (after.left.placed start.left.place)
  right : Adds start.right made (after.right.placed start.right.place)

/-- A marker has been opened in each text since some twin, and the same stands in both frames. -/
structure Begun (start : Twin pair) (marker marker' : Marker) (made : List Shape)
    (after : Twin pair) : Prop where
  left : Inside start.left marker made (after.left.placed start.left.place)
  right : Inside start.right marker' made (after.right.placed start.right.place)

theorem Since.refl (twin : Twin pair) : Since twin [] twin :=
  ⟨.refl _, .refl _⟩

theorem Since.trans (first : Since start made middle) (second : Since middle made' after) :
    Since start (made ++ made') after :=
  ⟨first.left.trans (second.left.replaced _), first.right.trans (second.right.replaced _)⟩

theorem Begun.since (within : Begun start marker marker' made middle)
    (since : Since middle made' after) : Begun start marker marker' (made ++ made') after :=
  ⟨within.left.adds (since.left.replaced _), within.right.adds (since.right.replaced _)⟩

/-- What was added are the tokens that are not ahead any more. -/
theorem Since.ahead (since : Since start made after) :
    start.ahead = Shape.leavesAll made ++ after.ahead := by
  have rest : start.left.rest = Shape.leavesAll made ++ after.left.rest := since.left.rest
  rw [start.leftRest, after.leftRest, ← List.append_assoc] at rest
  exact List.append_cancel_right rest

theorem Begun.ahead (within : Begun start marker marker' made after) :
    start.ahead = Shape.leavesAll made ++ after.ahead := by
  have rest : start.left.rest = Shape.leavesAll made ++ after.left.rest := within.left.rest
  rw [start.leftRest, after.leftRest, ← List.append_assoc] at rest
  exact List.append_cancel_right rest

/-- Where the rules stand afterwards makes no difference. -/
theorem Since.move (since : Since start made after) (place : Place) :
    Since start made (after.placed place) :=
  ⟨since.left, since.right⟩

theorem Since.of_placed {place : Place} (since : Since (start.placed place) made after) :
    Since start made after :=
  ⟨since.left.placed, since.right.placed⟩

@[simp] theorem left_placed (twin : Twin pair) : twin.left.placed twin.place = twin.left := rfl

@[simp] theorem right_placed (twin : Twin pair) : twin.right.placed twin.place = twin.right := by
  rw [place, ← twin.together, Stage.placed_place]

@[simp] theorem placed_place (twin : Twin pair) : twin.placed twin.place = twin := by
  obtain ⟨left, right, ahead, leftRest, rightRest, together⟩ := twin
  have same : right.placed left.place = right := by rw [← together, Stage.placed_place]
  simp only [placed, place, Stage.placed_place, same]

/-- What is known of each stage by itself, wherever the rules stand. -/
theorem Since.of (place : Place) (left : Adds (start.left.placed place) made after.left)
    (right : Adds (start.right.placed place) made after.right) : Since start made after :=
  ⟨left.placed, right.placed⟩

theorem Begun.of (place : Place) (left : Inside (start.left.placed place) marker made after.left)
    (right : Inside (start.right.placed place) marker' made after.right) :
    Begun start marker marker' made after :=
  ⟨left.placed, right.placed⟩

theorem Begun.leftInside (within : Begun start marker marker' made twin) :
    Inside (start.left.placed twin.place) marker made twin.left :=
  within.left.replaced twin.place

theorem Begun.rightInside (within : Begun start marker marker' made twin) :
    Inside (start.right.placed twin.place) marker' made twin.right := by
  have inside := within.right.replaced twin.place
  rwa [right_placed] at inside

/-- The same stage twice, with no tail. -/
def ofStage {lexed : Lexed} (stage : Stage lexed) : Twin { left := lexed, right := lexed } where
  left := stage
  right := stage
  ahead := stage.rest
  leftRest := (List.append_nil _).symm
  rightRest := (List.append_nil _).symm
  together := rfl

end Twin

namespace Grammar

open Twin

variable {pair : Pair} {α β σ : Type} {start twin : Twin pair} {made : List Shape}
  {marker marker' : Marker}

/-- If the first rule ends in the first text, then the second one does in the second text, and their
answers and the twin after them are as is said. -/
def Abreast (rule rule' : ParseM α) (twin : Twin pair) (post : α → α → Twin pair → Prop) : Prop :=
  ∀ answer parser, rule twin.left.parser = some (answer, parser) →
    ∃ answer' after, after.left.parser = parser ∧
      rule' twin.right.parser = some (answer', after.right.parser) ∧ post answer answer' after

theorem Abreast.mono {rule rule' : ParseM α} {post post' : α → α → Twin pair → Prop}
    (abreast : Abreast rule rule' twin post)
    (weaker : ∀ answer answer' after, post answer answer' after → post' answer answer' after) :
    Abreast rule rule' twin post' := by
  intro answer parser ran
  obtain ⟨answer', after, same, ran', holds⟩ := abreast answer parser ran
  exact ⟨answer', after, same, ran', weaker _ _ _ holds⟩

theorem Abreast.bind {first first' : ParseM α} {next next' : α → ParseM β}
    {post : β → β → Twin pair → Prop}
    (abreast : Abreast first first' twin fun value value' middle =>
      Abreast (next value) (next' value') middle post) :
    Abreast (first >>= next) (first' >>= next') twin post := by
  intro answer parser ran
  rw [run_bind] at ran ⊢
  obtain ⟨⟨value, middle⟩, ran, ranNext⟩ := Option.bind_eq_some_iff.1 ran
  obtain ⟨value', twin', rfl, ran', holds⟩ := abreast value middle ran
  rw [ran', Option.bind_some]
  exact holds answer parser ranNext

theorem abreast_pure {answer answer' : α} {post : α → α → Twin pair → Prop}
    (holds : post answer answer' twin) : Abreast (pure answer) (pure answer') twin post := by
  rintro _ _ ⟨⟩
  exact ⟨answer', twin, rfl, rfl, holds⟩

/-- What is known of each stage by itself, put together. -/
theorem abreast_of_reaches {rule rule' : ParseM α} {post : α → α → Twin pair → Prop}
    {leftPost : α → Stage pair.left → Prop} {rightPost : α → Stage pair.right → Prop}
    (left : Reaches rule twin.left leftPost) (right : Reaches rule' twin.right rightPost)
    (both : ∀ answer answer' left right, leftPost answer left → rightPost answer' right →
      ∃ after : Twin pair, after.left = left ∧ after.right = right ∧ post answer answer' after) :
    Abreast rule rule' twin post := by
  intro answer parser ran
  obtain ⟨_, stage, ranLeft, leftHolds⟩ := left
  obtain ⟨answer', stage', ranRight, rightHolds⟩ := right
  cases ranLeft.symm.trans ran
  obtain ⟨after, rfl, rfl, holds⟩ := both _ _ _ _ leftHolds rightHolds
  exact ⟨answer', after, rfl, ranRight, holds⟩

/-! ## Looking at tokens -/

/-- What is seen is the same in both texts. -/
theorem abreast_look {view : Builder → α} {post : α → α → Twin pair → Prop}
    (same : view twin.right.parser.builder = view twin.left.parser.builder)
    (holds : post (view twin.left.parser.builder) (view twin.left.parser.builder) twin) :
    Abreast (look view) (look view) twin post := by
  rintro _ _ ⟨⟩
  refine ⟨view twin.right.parser.builder, twin, rfl, rfl, ?_⟩
  rw [same]
  exact holds

end Grammar

namespace Twin

open Grammar

variable {pair : Pair} {twin : Twin pair} {kind : Kind}

/-- The next token, or that there is none, can be told from the tokens ahead. -/
def Clear (twin : Twin pair) : Prop :=
  twin.ahead = [] → pair.leftTail = [] ∧ pair.rightTail = []

/-- Whether the next token is of a kind can be told from the tokens ahead. -/
def Tells (twin : Twin pair) (kind : Kind) : Prop :=
  twin.ahead = [] → nextKind pair.leftTail ≠ some kind ∧ nextKind pair.rightTail ≠ some kind

theorem Clear.tells (clear : twin.Clear) (kind : Kind) : twin.Tells kind := by
  intro nothing
  obtain ⟨left, right⟩ := clear nothing
  rw [left, right]
  exact ⟨nofun, nofun⟩

theorem clear_of_next? (next : twin.next? ≠ none) : twin.Clear := by
  intro nothing
  rw [next?, nothing] at next
  contradiction

theorem nextKind_append {ahead tail : List Piece} (nothing : ahead = [] → tail = []) :
    nextKind (ahead ++ tail) = nextKind ahead := by
  cases ahead with
  | nil => rw [nothing rfl, List.append_nil]
  | cons piece ahead => rfl

theorem Clear.left (clear : twin.Clear) : nextKind twin.left.rest = twin.next? := by
  rw [twin.leftRest]
  exact nextKind_append fun nothing => (clear nothing).1

theorem Clear.right (clear : twin.Clear) : nextKind twin.right.rest = twin.next? := by
  rw [twin.rightRest]
  exact nextKind_append fun nothing => (clear nothing).2

theorem beq_nextKind_append {ahead tail : List Piece} (told : ahead = [] → nextKind tail ≠ some kind) :
    (nextKind (ahead ++ tail) == some kind) = (nextKind ahead == some kind) := by
  cases ahead with
  | nil => simpa using told rfl
  | cons piece ahead => rfl

theorem Tells.left (tells : twin.Tells kind) :
    (nextKind twin.left.rest == some kind) = (twin.next? == some kind) := by
  rw [twin.leftRest]
  exact beq_nextKind_append fun nothing => (tells nothing).1

theorem Tells.right (tells : twin.Tells kind) :
    (nextKind twin.right.rest == some kind) = (twin.next? == some kind) := by
  rw [twin.rightRest]
  exact beq_nextKind_append fun nothing => (tells nothing).2

theorem ahead_eq_nil (next : twin.next? = none) : twin.ahead = [] := by
  unfold next? at next
  cases ahead : twin.ahead with
  | nil => rfl
  | cons piece left => simp [ahead] at next

/-- The next token, if it is of some kind. -/
theorem ahead_of_next? (next : twin.next? = some kind) :
    ∃ body left, twin.ahead = (kind, body) :: left := by
  obtain ⟨⟨_, body⟩, left, ahead, rfl⟩ : ∃ piece left, twin.ahead = piece :: left ∧ piece.1 = kind := by
    unfold next? at next
    cases ahead : twin.ahead with
    | nil => simp [ahead] at next
    | cons piece left => exact ⟨piece, left, rfl, by simpa [ahead] using next⟩
  exact ⟨body, left, ahead⟩

end Twin

namespace Grammar

open Twin

variable {pair : Pair} {α β σ : Type} {start twin : Twin pair} {made : List Shape}
  {marker marker' : Marker} {kind : Kind} {message : String}

theorem abreast_current? (clear : twin.Clear) {post : Option Kind → Option Kind → Twin pair → Prop}
    (holds : post twin.next? twin.next? twin) : Abreast current? current? twin post := by
  have left : twin.left.parser.builder.current? = twin.next? := (current?_eq _).trans clear.left
  have right : twin.right.parser.builder.current? = twin.next? := (current?_eq _).trans clear.right
  exact abreast_look (right.trans left.symm) (by rw [left]; exact holds)

theorem abreast_isAt (tells : twin.Tells kind) {post : Bool → Bool → Twin pair → Prop}
    (holds : post (twin.next? == some kind) (twin.next? == some kind) twin) :
    Abreast (isAt kind) (isAt kind) twin post := by
  have left : twin.left.parser.builder.isAt kind = _ := (isAt_eq rfl kind).trans tells.left
  have right : twin.right.parser.builder.isAt kind = _ := (isAt_eq rfl kind).trans tells.right
  exact abreast_look (right.trans left.symm) (by rw [left]; exact holds)

theorem abreast_isAtAny (clear : twin.Clear) {kinds : List Kind}
    {post : Bool → Bool → Twin pair → Prop}
    (holds : post (twin.next?.any kinds.contains) (twin.next?.any kinds.contains) twin) :
    Abreast (isAtAny kinds) (isAtAny kinds) twin post := by
  have left : twin.left.parser.builder.isAtAny kinds = twin.next?.any kinds.contains := by
    rw [Builder.isAtAny, current?_eq, ← clear.left, nextKind]
  have right : twin.right.parser.builder.isAtAny kinds = twin.next?.any kinds.contains := by
    rw [Builder.isAtAny, current?_eq, ← clear.right, nextKind]
  exact abreast_look (right.trans left.symm) (by rw [left]; exact holds)

theorem atEnd_eq {lexed : Lexed} (stage : Stage lexed) :
    stage.parser.builder.atEnd = stage.rest.isEmpty := by
  rw [stage.sees.atEnd, ← List.isEmpty_map]
  rfl

theorem abreast_atEnd (clear : twin.Clear) {post : Bool → Bool → Twin pair → Prop}
    (holds : post twin.ahead.isEmpty twin.ahead.isEmpty twin) : Abreast atEnd atEnd twin post := by
  have ends {tail : List Piece} (nothing : twin.ahead = [] → tail = []) :
      (twin.ahead ++ tail).isEmpty = twin.ahead.isEmpty := by
    cases ahead : twin.ahead with
    | nil => rw [nothing ahead]; rfl
    | cons piece left => rfl
  have left : twin.left.parser.builder.atEnd = twin.ahead.isEmpty := by
    rw [atEnd_eq, twin.leftRest, ends fun nothing => (clear nothing).1]
  have right : twin.right.parser.builder.atEnd = twin.ahead.isEmpty := by
    rw [atEnd_eq, twin.rightRest, ends fun nothing => (clear nothing).2]
  exact abreast_look (right.trans left.symm) (by rw [left]; exact holds)

/-! ## Moves of the builder -/

/-- A twin of two stages to which the same was added. -/
theorem exists_twin {ahead : List Piece} {left : Stage pair.left} {right : Stage pair.right}
    {place : Place} (leftRest : left.rest = ahead ++ pair.leftTail)
    (rightRest : right.rest = ahead ++ pair.rightTail) (leftPlace : left.place = place)
    (rightPlace : right.place = place) : ∃ after : Twin pair,
      after.left = left ∧ after.right = right ∧ after.ahead = ahead ∧ after.place = place :=
  ⟨⟨left, right, ahead, leftRest, rightRest, rightPlace.trans leftPlace.symm⟩, rfl, rfl, rfl, leftPlace⟩

/-- A move that adds the same to both texts, of which each stage says so by itself. -/
theorem abreast_adds {op op' : ParseM α} {ahead : List Piece} {answer answer' : α}
    {post : α → α → Twin pair → Prop}
    (left : Reaches op twin.left fun given stage => given = answer ∧
      Adds (start.left.placed twin.place) made stage ∧ stage.rest = ahead ++ pair.leftTail)
    (right : Reaches op' twin.right fun given stage => given = answer' ∧
      Adds (start.right.placed twin.place) made stage ∧ stage.rest = ahead ++ pair.rightTail)
    (holds : ∀ after, Since start made after → after.ahead = ahead → after.place = twin.place →
      post answer answer' after) : Abreast op op' twin post := by
  refine abreast_of_reaches left right ?_
  rintro _ _ left right ⟨rfl, adds, rest⟩ ⟨rfl, adds', rest'⟩
  obtain ⟨after, rfl, rfl, here, place⟩ := exists_twin rest rest' adds.later.place adds'.later.place
  exact ⟨after, rfl, rfl, holds after ⟨adds.placed, adds'.placed⟩ here place⟩

theorem abreast_mark {post : Marker → Marker → Twin pair → Prop}
    (holds : ∀ marker marker' after, Begun twin marker marker' [] after →
      after.ahead = twin.ahead → after.place = twin.place → post marker marker' after) :
    Abreast mark mark twin post := by
  refine abreast_of_reaches (reaches_mark fun _ _ inside rest => And.intro inside rest)
    (reaches_mark fun _ _ inside rest => And.intro inside rest) ?_
  rintro marker marker' left right ⟨inside, rest⟩ ⟨inside', rest'⟩
  obtain ⟨after, rfl, rfl, here, place⟩ := exists_twin (rest.trans twin.leftRest)
    (rest'.trans twin.rightRest) inside.later.place (inside'.later.place.trans twin.together)
  have within : Begun twin marker marker' [] after :=
    Begun.of twin.place inside (by rw [right_placed]; exact inside')
  exact ⟨after, rfl, rfl, holds _ _ after within here place⟩

theorem abreast_advance {piece : Piece} {ahead : List Piece} {post : Unit → Unit → Twin pair → Prop}
    (next : twin.ahead = piece :: ahead)
    (holds : ∀ after, Since twin [.token piece] after → after.ahead = ahead →
      after.place = twin.place → post () () after) : Abreast advance advance twin post := by
  refine abreast_adds (reaches_advance (by rw [twin.leftRest, next]; rfl) fun _ adds rest =>
    ⟨rfl, adds, rest⟩) (reaches_advance (by rw [twin.rightRest, next]; rfl) fun _ adds rest => ?_) holds
  exact ⟨rfl, by rw [right_placed]; exact adds, rest⟩

theorem abreast_missing {post : Unit → Unit → Twin pair → Prop}
    (holds : ∀ after, Since twin [.node .error (some message) []] after →
      after.ahead = twin.ahead → after.place = twin.place → post () () after) :
    Abreast (missing message) (missing message) twin post := by
  refine abreast_adds (reaches_missing fun _ adds rest => ⟨rfl, adds, rest.trans twin.leftRest⟩)
    (reaches_missing fun _ adds rest => ?_) holds
  exact ⟨rfl, by rw [right_placed]; exact adds, rest.trans twin.rightRest⟩

theorem abreast_advanceError {piece : Piece} {ahead : List Piece}
    {post : Unit → Unit → Twin pair → Prop} (next : twin.ahead = piece :: ahead)
    (holds : ∀ after, Since twin [.node .error (some message) [.token piece]] after →
      after.ahead = ahead → after.place = twin.place → post () () after) :
    Abreast (advanceError message) (advanceError message) twin post := by
  refine abreast_adds (reaches_advanceError (by rw [twin.leftRest, next]; rfl) fun _ adds rest =>
    ⟨rfl, adds, rest⟩) (reaches_advanceError (by rw [twin.rightRest, next]; rfl) fun _ adds rest => ?_)
    holds
  exact ⟨rfl, by rw [right_placed]; exact adds, rest⟩

theorem abreast_done {kind : NodeKind} {post : Unit → Unit → Twin pair → Prop}
    (within : Begun start marker marker' made twin)
    (holds : ∀ after, Since start [.node kind none made] after → after.ahead = twin.ahead →
      after.place = twin.place → post () () after) :
    Abreast (done marker kind) (done marker' kind) twin post :=
  abreast_adds
    (reaches_done within.leftInside fun _ adds rest => ⟨rfl, adds, rest.trans twin.leftRest⟩)
    (reaches_done within.rightInside fun _ adds rest => ⟨rfl, adds, rest.trans twin.rightRest⟩) holds

theorem abreast_fault {post : Unit → Unit → Twin pair → Prop}
    (within : Begun start marker marker' made twin)
    (holds : ∀ after, Since start [.node .error (some message) made] after →
      after.ahead = twin.ahead → after.place = twin.place → post () () after) :
    Abreast (fault marker message) (fault marker' message) twin post :=
  abreast_adds
    (reaches_fault within.leftInside fun _ adds rest => ⟨rfl, adds, rest.trans twin.leftRest⟩)
    (reaches_fault within.rightInside fun _ adds rest => ⟨rfl, adds, rest.trans twin.rightRest⟩) holds

theorem abreast_drop {post : Unit → Unit → Twin pair → Prop}
    (within : Begun start marker marker' made twin)
    (holds : ∀ after, Since start made after → after.ahead = twin.ahead →
      after.place = twin.place → post () () after) :
    Abreast (drop marker) (drop marker') twin post :=
  abreast_adds
    (reaches_drop within.leftInside fun _ adds rest => ⟨rfl, adds, rest.trans twin.leftRest⟩)
    (reaches_drop within.rightInside fun _ adds rest => ⟨rfl, adds, rest.trans twin.rightRest⟩) holds

theorem abreast_takeBack {place : Place} {post : Unit → Unit → Twin pair → Prop}
    (left : Returns (start.left.placed place) marker twin.left)
    (right : Returns (start.right.placed place) marker' twin.right) (same : twin.place = place)
    (holds : ∀ after, Since start [] after → after.ahead = start.ahead →
      after.place = twin.place → post () () after) :
    Abreast (rollback marker) (rollback marker') twin post := by
  subst same
  exact abreast_adds
    (reaches_takeBack left fun _ adds rest => ⟨rfl, adds, rest.trans start.leftRest⟩)
    (reaches_takeBack right fun _ adds rest => ⟨rfl, adds, rest.trans start.rightRest⟩) holds

theorem abreast_rollback {post : Unit → Unit → Twin pair → Prop}
    (within : Begun start marker marker' made twin)
    (holds : ∀ after, Since start [] after → after.ahead = start.ahead →
      after.place = twin.place → post () () after) :
    Abreast (rollback marker) (rollback marker') twin post :=
  abreast_takeBack within.leftInside.returns within.rightInside.returns rfl holds

/-- What is made in another frame can be taken back as well. -/
theorem abreast_rollbackAround {middle : Twin pair} {made' : List Shape} {inner inner' : Marker}
    {post : Unit → Unit → Twin pair → Prop} (within : Begun start marker marker' made middle)
    (deeper : Begun middle inner inner' made' twin)
    (holds : ∀ after, Since start [] after → after.ahead = start.ahead →
      after.place = twin.place → post () () after) :
    Abreast (rollback marker) (rollback marker') twin post := by
  have left := (within.left.replaced twin.place).returns.inside deeper.leftInside
  have right := (within.right.replaced twin.place).returns.inside deeper.rightInside
  exact abreast_takeBack left right rfl holds

theorem abreast_wrap {kind : NodeKind} {post : Marker → Marker → Twin pair → Prop}
    (within : Begun start marker marker' made twin)
    (holds : ∀ wrapper wrapper' after, Begun start wrapper wrapper' [.node kind none made] after →
      after.ahead = twin.ahead → after.place = twin.place → post wrapper wrapper' after) :
    Abreast (wrap marker kind) (wrap marker' kind) twin post := by
  refine abreast_of_reaches (reaches_wrap within.leftInside fun _ _ inside rest => And.intro inside rest)
    (reaches_wrap within.rightInside fun _ _ inside rest => And.intro inside rest) ?_
  rintro wrapper wrapper' left right ⟨inside, rest⟩ ⟨inside', rest'⟩
  obtain ⟨after, rfl, rfl, here, place⟩ := exists_twin (rest.trans twin.leftRest)
    (rest'.trans twin.rightRest) inside.later.place inside'.later.place
  exact ⟨after, rfl, rfl, holds _ _ after (.of twin.place inside inside') here place⟩

/-! ## Passing tokens -/

theorem matches?_eq (kind : Kind) : matches? kind = (do
    if ← isAt kind then
      advance
      pure true
    else pure false) := by
  funext parser
  rw [run_bind]
  unfold matches? withBuilder isAt look Builder.matches?
  dsimp only
  rw [Option.bind_some]
  dsimp only
  cases parser.builder.isAt kind <;> rfl

theorem expect_eq (kind : Kind) (message : String) : expect kind message = (do
    if ← matches? kind then pure true
    else
      missing message
      pure false) := by
  funext parser
  rw [run_bind]
  unfold matches? expect withBuilder Builder.matches? Builder.expect
  dsimp only
  rw [Option.bind_some]
  cases parser.builder.isAt kind <;> rfl

/-- The next token is passed if it is of the kind. -/
theorem abreast_matches (tells : twin.Tells kind) {post : Bool → Bool → Twin pair → Prop}
    (yes : ∀ body ahead after, twin.ahead = (kind, body) :: ahead →
      Since twin [.token (kind, body)] after → after.ahead = ahead → after.place = twin.place →
      post true true after)
    (no : twin.next? ≠ some kind → post false false twin) :
    Abreast (matches? kind) (matches? kind) twin post := by
  rw [matches?_eq]
  refine .bind (abreast_isAt tells ?_)
  cases is : twin.next? == some kind with
  | true =>
      obtain ⟨body, ahead, next⟩ := ahead_of_next? (beq_iff_eq.1 is)
      exact .bind (abreast_advance next fun after since here place =>
        abreast_pure (yes body ahead after next since here place))
  | false => exact abreast_pure (no (beq_eq_false_iff_ne.1 is))

/-! ## Places -/

/-- The place changes, and nothing else. -/
theorem abreast_place {op : ParseM α} {answer : α} {place : Place}
    {post : α → α → Twin pair → Prop}
    (moves : ∀ {lexed : Lexed} (stage : Stage lexed), stage.place = twin.place →
      op stage.parser = some (answer, (stage.placed place).parser))
    (holds : post answer answer (twin.placed place)) : Abreast op op twin post := by
  intro _ _ ran
  cases (moves twin.left rfl).symm.trans ran
  exact ⟨answer, twin.placed place, rfl, moves twin.right twin.together, holds⟩

/-- The same place one level deeper. -/
def deeperPlace (place : Place) : Place := { place with depth := place.depth + 1 }

theorem abreast_enter {post : Bool → Bool → Twin pair → Prop}
    (full : Builder.maxDepth ≤ twin.place.depth → post false false twin)
    (room : twin.place.depth < Builder.maxDepth →
      post true true (twin.placed (deeperPlace twin.place))) :
    Abreast (withBuilder Builder.enter) (withBuilder Builder.enter) twin post := by
  have depth {lexed : Lexed} {stage : Stage lexed} (same : stage.place = twin.place) :
      stage.parser.builder.depth = twin.place.depth := congrArg Place.depth same
  by_cases deep : Builder.maxDepth ≤ twin.place.depth
  · rw [← placed_place twin] at full
    refine abreast_place (fun stage same => ?_) (full deep)
    unfold withBuilder Builder.enter
    dsimp only
    rw [if_pos ((depth same).symm ▸ deep), ← same]
    rfl
  · refine abreast_place (fun stage same => ?_) (room (Nat.not_le.1 deep))
    unfold withBuilder Builder.enter
    dsimp only
    rw [if_neg ((depth same).symm ▸ deep), ← same]
    rfl

theorem abreast_exit {post : Unit → Unit → Twin pair → Prop}
    (holds : post () () (twin.placed { twin.place with depth := twin.place.depth - 1 })) :
    Abreast (onBuilder Builder.exit) (onBuilder Builder.exit) twin post :=
  abreast_place (fun stage same => by rw [← same]; rfl) holds

/-! ## Repetition -/

/-- A rule that is repeated goes abreast if each round keeps an invariant, and passes a token when it
says to go on. The induction is on the number of tokens ahead. -/
theorem abreast_loop {rule rule' : σ → ParseM (Bool × σ)} (invariant : σ → σ → Twin pair → Prop)
    {post : σ → σ → Twin pair → Prop}
    (round : ∀ state state' twin, invariant state state' twin →
      Abreast (rule state) (rule' state') twin fun answer answer' after => answer.1 = answer'.1 ∧
        if answer.1 then
          invariant answer.2 answer'.2 after ∧ after.ahead.length < twin.ahead.length
        else post answer.2 answer'.2 after)
    (state state' : σ) (twin : Twin pair) (holds : invariant state state' twin) :
    Abreast (loop rule state) (loop rule' state') twin post := by
  rw [loop_eq, loop_eq]
  refine .bind ((round state state' twin holds).mono ?_)
  rintro ⟨goOn, state⟩ ⟨_, state'⟩ middle ⟨⟨⟩, holds⟩
  cases goOn with
  | false => exact abreast_pure holds
  | true =>
      obtain ⟨holds, shorter⟩ := holds
      exact abreast_loop invariant round state state' middle holds
termination_by twin.ahead.length

theorem abreast_repeatWhile {rule rule' : ParseM Bool} (invariant post : Twin pair → Prop)
    (round : ∀ twin, invariant twin → Abreast rule rule' twin fun found found' after =>
      found = found' ∧
        if found then invariant after ∧ after.ahead.length < twin.ahead.length else post after)
    (holds : invariant twin) :
    Abreast (repeatWhile rule) (repeatWhile rule') twin fun _ _ after => post after := by
  refine abreast_loop (fun _ _ => invariant) (fun _ _ twin holds => ?_) () () twin holds
  refine .bind ((round twin holds).mono ?_)
  rintro found _ after ⟨rfl, holds⟩
  exact abreast_pure ⟨rfl, holds⟩

end Grammar
end StarlarkSyntax
