import StarlarkSyntax.Proofs.Print.Separated
import StarlarkSyntax.Proofs.Print.Sound
/-!
# Reading subscripts and slices

Whether the brackets after an expression hold a slice is seen in the tokens that are left
(`sliceAhead_eq`). The parts of an item of a slice may be left out; where the first item starts and
stops is then marked by an empty node.
-/

set_option autoImplicit false

namespace StarlarkSyntax

open Layout (Piece)
open Stage (Inside Adds)

namespace Grammar

variable {lexed : Lexed} {nested : Nested} {levels : Nat} {stage start : Stage lexed}
  {left : List Piece} {shapes made : List Shape} {shape : Shape} {marker : Marker}

/-! ## Looking ahead -/

theorem sliceAhead_step (builder : Builder) (n depth lambdas : Nat) :
    sliceAhead builder n depth lambdas =
      match builder.nth? n with
      | none => false
      | some kind =>
        match passColon depth lambdas kind with
        | .error answer => answer
        | .ok (depth, lambdas) => sliceAhead builder (n + 1) depth lambdas := by
  rw [sliceAhead.eq_def]
  cases builder.nth? n with
  | none => rfl
  | some kind =>
      cases kind with
      | closing delimiter => cases depth <;> rfl
      | colon => cases depth <;> cases lambdas <;> rfl
      | reserved word => cases word <;> rfl
      | _ => rfl

/-- The look ahead sees the tokens that are left. -/
theorem sliceAhead_eq (stage : Stage lexed) (n depth lambdas : Nat) :
    sliceAhead stage.parser.builder n depth lambdas =
      hasSliceColon (stage.rest.drop n) depth lambdas := by
  induction left : stage.rest.drop n generalizing n depth lambdas with
  | nil =>
      have none : stage.rest[n]? = none := by
        rw [List.getElem?_eq_none_iff]
        exact List.drop_eq_nil_iff.1 left
      rw [sliceAhead_step, nth?_eq, none]
      rfl
  | cons piece more ih =>
      have some : stage.rest[n]? = some piece := by
        have := congrArg List.head? left
        rwa [List.head?_drop] at this
      have next : stage.rest.drop (n + 1) = more := by
        rw [← List.drop_drop, left, List.drop_one, List.tail_cons]
      rw [sliceAhead_step, nth?_eq, some, hasSliceColon]
      show (match passColon depth lambdas piece.1 with
        | .error answer => answer
        | .ok (depth, lambdas) => _) = _
      cases passColon depth lambdas piece.1 with
      | error answer => rfl
      | ok state => exact ih (n + 1) _ _ next

theorem reaches_atSlice {answer : Bool} {post : Bool → Stage lexed → Prop}
    (rest : stage.rest = left) (is : hasSliceColon left 0 0 = answer) (holds : post answer stage) :
    Reaches (look atSlice) stage post := by
  refine reaches_look ?_
  rw [atSlice, sliceAhead_eq, rest, List.drop_zero, is]
  exact holds

/-! ## Subscripts -/

theorem gives_subscript (reads : Reads (tuple nested false) levels shape (EndsItems 1))
    (rest : stage.rest = shape.leaves ++ spelled rbracket :: left)
    (noColon : hasSliceColon (shape.leaves ++ spelled rbracket :: left) 0 0 = false)
    (deep : stage.place.depth + levels ≤ Builder.maxDepth) :
    Gives (subscript nested) stage .subscriptionExpression [shape, .ofKind rbracket] := by
  have ends : EndsItems 1 (spelled rbracket :: left) :=
    ⟨looser_closing Nat.one_pos .bracket left, nofun,
      fun kind same => by cases same; exact ⟨rfl, nofun⟩⟩
  refine Reaches.bind (reaches_atSlice rest noColon ?_)
  refine reads.require rest ends deep fun read adds rest => ?_
  refine Reaches.bind (reaches_expect rest rfl fun closed adds' _ => ?_)
  exact reaches_pure ⟨rfl, adds.trans adds'⟩

/-! ## Parts of items -/

/-- Another item comes, or the closing bracket. -/
def EndsItem (left : List Piece) : Prop :=
  nextKind left = some .comma ∨ nextKind left = some rbracket

/-- A part of an item, or nothing. -/
inductive IsPart (nested : Nested) (levels : Nat) : List Shape → Prop
  | present {shape : Shape} (item : IsItem (test nested false) 1 levels shape) :
    IsPart nested levels [shape]
  | absent (declines : Declines (test nested false) levels Absent) : IsPart nested levels []

/-- A part of an item, or the mark of one that is left out. -/
inductive IsMarked (nested : Nested) (levels : Nat) : List Shape → Prop
  | present {shape : Shape} (item : IsItem (test nested false) 1 levels shape) :
    IsMarked nested levels [shape]
  | absent : IsMarked nested levels [.node .emptyExpression none []]

/-- What follows a part: a colon, another item, or the closing bracket. -/
def EndsPart (left : List Piece) : Prop :=
  nextKind left = some .colon ∨ EndsItem left

theorem EndsPart.looser (ends : EndsPart left) : Looser 1 left := by
  rcases ends with next | next | next <;> rw [Looser, next] <;> exact Nat.one_pos

theorem EndsPart.absent (ends : EndsPart left) : Absent left := by
  intro kind same
  rcases ends with next | next | next <;> cases next.symm.trans same <;> exact ⟨rfl, nofun⟩

theorem EndsItem.noColon (ends : EndsItem left) : (nextKind left == some .colon) = false := by
  rcases ends with next | next <;> rw [next] <;> rfl

/-- A part is read if it is there. -/
theorem IsPart.bind {α : Type} {next : Bool → ParseM α} {post : α → Stage lexed → Prop}
    (part : IsPart nested levels shapes) (rest : stage.rest = Shape.leavesAll shapes ++ left)
    (ends : EndsPart left) (deep : stage.place.depth + levels ≤ Builder.maxDepth)
    (reached : ∀ found after, Adds stage shapes after → after.rest = left →
      Reaches (next found) after post) : Reaches (test nested false >>= next) stage post := by
  cases part with
  | present item =>
      rw [Shape.leavesAll_cons, Shape.leavesAll_nil, List.append_nil] at rest
      exact item.reads.bind rest ends.looser deep (reached true)
  | absent declines => exact declines.bind rest ends.absent deep (reached false)

theorem gives_sliceStart (start : IsMarked nested levels shapes)
    (rest : stage.rest = Shape.leavesAll shapes ++ spelled .colon :: left)
    (deep : stage.place.depth + levels ≤ Builder.maxDepth) :
    Gives (sliceStart nested) stage () shapes := by
  cases start with
  | present item =>
      rw [Shape.leavesAll_cons, Shape.leavesAll_nil, List.append_nil] at rest
      refine Reaches.bind (reaches_isAt rest (item.starts.ne (by exact Nat.one_pos) _) ?_)
      exact (item.reads stage _ rest Nat.one_pos deep).require _
  | absent => exact Reaches.bind (reaches_isAt rest rfl (gives_emptyNode stage _))

/-- After where an item stops comes something that may come there. -/
theorem EndsPart.any (ends : EndsPart left) :
    (nextKind left).any [rbracket, .colon, .comma].contains = true := by
  rcases ends with next | next | next <;> rw [next] <;> rfl

/-- Where the first item stops, before another colon. -/
theorem gives_sliceStop_marked (stop : IsMarked nested levels shapes)
    (rest : stage.rest = Shape.leavesAll shapes ++ spelled .colon :: left)
    (deep : stage.place.depth + levels ≤ Builder.maxDepth) :
    Gives (sliceStop nested) stage () shapes := by
  have ends : EndsPart (spelled .colon :: left) := .inl rfl
  cases stop with
  | present item =>
      rw [Shape.leavesAll_cons, Shape.leavesAll_nil, List.append_nil] at rest
      refine Reaches.bind (reaches_isAt rest (item.starts.ne (by exact Nat.one_pos) _) ?_)
      refine item.reads.bind rest ends.looser deep fun after adds rest => ?_
      exact Reaches.bind (reaches_isAtAny rest ends.any (reaches_pure ⟨rfl, adds⟩))
  | absent =>
      refine Reaches.bind (reaches_isAt rest rfl ?_)
      refine (gives_emptyNode stage _).bind rest fun after adds rest => ?_
      exact Reaches.bind (reaches_isAtAny rest ends.any (reaches_pure ⟨rfl, adds⟩))

/-- Where the first item stops, if it has no step. -/
theorem gives_sliceStop (stop : IsPart nested levels shapes)
    (rest : stage.rest = Shape.leavesAll shapes ++ left) (ends : EndsItem left)
    (deep : stage.place.depth + levels ≤ Builder.maxDepth) :
    Gives (sliceStop nested) stage () shapes := by
  have noColon : (nextKind (Shape.leavesAll shapes ++ left) == some .colon) = false := by
    cases stop with
    | present item =>
        rw [Shape.leavesAll_cons, Shape.leavesAll_nil, List.append_nil]
        exact item.starts.ne (by exact Nat.one_pos) left
    | absent => exact ends.noColon
  refine Reaches.bind (reaches_isAt rest noColon ?_)
  refine stop.bind rest (.inr ends) deep fun _ after adds rest => ?_
  exact Reaches.bind (reaches_isAtAny rest (EndsPart.any (.inr ends)) (reaches_pure ⟨rfl, adds⟩))

theorem gives_sliceStep (step : IsPart nested levels shapes)
    (rest : stage.rest = spelled .colon :: (Shape.leavesAll shapes ++ left)) (ends : EndsItem left)
    (deep : stage.place.depth + levels ≤ Builder.maxDepth) :
    Gives (sliceStep nested) stage () (.ofKind .colon :: shapes) := by
  refine Reaches.bind (reaches_matches rest rfl fun colon adds rest => ?_)
  refine step.bind rest (.inr ends) (by rw [adds.later.place]; exact deep) fun _ after adds' _ => ?_
  exact reaches_pure ⟨rfl, adds.trans adds'⟩

/-! ## Items after the first -/

/-- The parts of an item that is not the first. -/
inductive IsSliceItem (nested : Nested) (levels : Nat) : List Shape → Prop
  | index {shape : Shape} (item : IsItem (test nested false) 1 levels shape) :
    IsSliceItem nested levels [shape]
  | pair {start stop : List Shape} (isStart : IsPart nested levels start)
    (isStop : IsPart nested levels stop) :
    IsSliceItem nested levels (start ++ .ofKind .colon :: stop)
  | triple {start stop step : List Shape} (isStart : IsPart nested levels start)
    (isStop : IsPart nested levels stop) (isStep : IsPart nested levels step) :
    IsSliceItem nested levels (start ++ .ofKind .colon :: stop ++ .ofKind .colon :: step)

theorem gives_sliceItem (item : IsSliceItem nested levels shapes)
    (rest : stage.rest = Shape.leavesAll shapes ++ left) (ends : EndsItem left)
    (deep : stage.place.depth + levels ≤ Builder.maxDepth) :
    Gives (sliceItem nested) stage () [.node .sliceItem none shapes] := by
  refine Reaches.bind (reaches_mark fun marker marked inside same => ?_)
  have rest := same.trans rest
  have deep : marked.place.depth + levels ≤ Builder.maxDepth := by
    rw [inside.later.place]
    exact deep
  cases item with
  | index item =>
      rw [Shape.leavesAll_cons, Shape.leavesAll_nil, List.append_nil] at rest
      refine item.reads.bind rest (EndsPart.looser (.inr ends)) deep fun read adds rest => ?_
      refine Reaches.bind (reaches_matches_not rest ends.noColon ?_)
      exact reaches_done (inside.adds adds) fun after adds _ => ⟨rfl, adds⟩
  | pair isStart isStop =>
      simp only [Shape.leavesAll_append, Shape.leavesAll_cons, Shape.leaves_ofKind,
        List.append_assoc, List.cons_append, List.nil_append] at rest
      refine isStart.bind rest (.inl rfl) deep fun _ started adds rest => ?_
      refine Reaches.bind (reaches_matches rest rfl fun colon adds' rest => ?_)
      have adds := adds.trans adds'
      refine isStop.bind rest (.inr ends) (by rw [adds.later.place]; exact deep)
        fun _ stopped adds' rest => ?_
      have adds := adds.trans adds'
      refine Reaches.bind (reaches_matches_not rest ends.noColon ?_)
      have inside := inside.adds adds
      refine reaches_done inside fun after adds _ => ⟨rfl, ?_⟩
      simpa [Shape.ofKind] using adds
  | triple isStart isStop isStep =>
      simp only [Shape.leavesAll_append, Shape.leavesAll_cons, Shape.leaves_ofKind,
        List.append_assoc, List.cons_append, List.nil_append] at rest
      refine isStart.bind rest (.inl rfl) deep fun _ started adds rest => ?_
      refine Reaches.bind (reaches_matches rest rfl fun colon adds' rest => ?_)
      have adds := adds.trans adds'
      refine isStop.bind rest (.inl rfl) (by rw [adds.later.place]; exact deep)
        fun _ stopped adds' rest => ?_
      have adds := adds.trans adds'
      refine Reaches.bind (reaches_matches rest rfl fun colon adds' rest => ?_)
      have adds := adds.trans adds'
      refine isStep.bind rest (.inr ends) (by rw [adds.later.place]; exact deep)
        fun _ stepped adds' rest => ?_
      have inside := inside.adds (adds.trans adds')
      refine reaches_done inside fun after adds _ => ⟨rfl, ?_⟩
      simpa [Shape.ofKind] using adds

/-- The rule for the next item of a slice. -/
def nextSliceItem (nested : Nested) : ParseM Bool := do
  if !(← matches? .comma) then pure false
  else if ← isAt rbracket then pure false
  else
    sliceItem nested
    checkItemEnd

theorem IsPart.other (part : IsPart nested levels shapes) (left : List Piece) :
    (nextKind (Shape.leavesAll shapes ++ spelled .colon :: left) == some rbracket) = false := by
  cases part with
  | present item =>
      rw [Shape.leavesAll_cons, Shape.leavesAll_nil, List.append_nil]
      exact item.starts.ne (by exact Nat.one_pos) _
  | absent => rfl

/-- No item begins with the closing bracket. -/
theorem IsSliceItem.other (item : IsSliceItem nested levels shapes) (left : List Piece) :
    (nextKind (Shape.leavesAll shapes ++ left) == some rbracket) = false := by
  cases item with
  | index item =>
      rw [Shape.leavesAll_cons, Shape.leavesAll_nil, List.append_nil]
      exact item.starts.ne (by exact Nat.one_pos) left
  | pair isStart isStop =>
      rw [Shape.leavesAll_append, List.append_assoc]
      exact isStart.other _
  | triple isStart isStop isStep =>
      rw [Shape.leavesAll_append, Shape.leavesAll_append, List.append_assoc, List.append_assoc]
      exact isStart.other _

theorem gives_checkItemEnd (rest : stage.rest = left) (ends : EndsItem left) :
    Gives checkItemEnd stage true [] :=
  Reaches.bind (reaches_isAtAny rest (show _ = true by
    rcases ends with next | next <;> rw [next] <;> rfl) (reaches_pure ⟨rfl, .refl stage⟩))

theorem gives_nextSliceItem (item : IsSliceItem nested levels shapes)
    (rest : stage.rest = Shape.leavesAll [.ofKind .comma, .node .sliceItem none shapes] ++ left)
    (ends : EndsItem left) (deep : stage.place.depth + levels ≤ Builder.maxDepth) :
    Gives (nextSliceItem nested) stage true [.ofKind .comma, .node .sliceItem none shapes] := by
  simp only [Shape.leavesAll_cons, Shape.leavesAll_nil, List.append_nil, Shape.leaves_ofKind,
    Shape.leaves_node, List.cons_append, List.nil_append] at rest
  refine Reaches.bind (reaches_matches rest rfl fun middle adds rest => ?_)
  refine Reaches.bind (reaches_isAt rest (item.other left) ?_)
  refine (gives_sliceItem item rest ends (by rw [adds.later.place]; exact deep)).andThen ?_
  intro read adds'
  have rest : read.rest = left := adds'.left (rest.trans (by simp))
  exact (gives_checkItemEnd rest ends).mono fun _ after holds =>
    ⟨holds.1, (adds.trans adds').trans holds.2⟩

/-! ## All items -/

/-- All items after the first are read. -/
def AreSliceItems (nested : Nested) (levels : Nat) (shapes : List Shape) : Prop :=
  ∀ shape ∈ shapes, ∃ parts, IsSliceItem nested levels parts ∧ shape = .node .sliceItem none parts

theorem endsItem_others (others : List Shape) (left : List Piece) :
    EndsItem (Shape.leavesAll (others.flatMap fun shape => [.ofKind .comma, shape]) ++
      spelled rbracket :: left) := by
  cases others with
  | nil => exact .inr rfl
  | cons => exact .inl rfl

/-- The end of the first item and everything after it. -/
theorem reaches_sliceRest {others : List Shape} {post : Unit → Stage lexed → Prop}
    (items : AreSliceItems nested levels others) (inside : Inside start marker made stage)
    (rest : stage.rest = Shape.leavesAll (others.flatMap fun shape => [.ofKind .comma, shape]) ++
      spelled rbracket :: left) (deep : stage.place.depth + levels ≤ Builder.maxDepth)
    (reached : ∀ after, Adds start (Shape.withCommas (.node .sliceItem none made :: others) ++
      [.ofKind rbracket]) after → post () after) :
    Reaches (sliceRest nested marker) stage post := by
  refine Reaches.bind (reaches_done inside fun first adds same => ?_)
  have rest := same.trans rest
  have place := adds.later.place.trans inside.later.place.symm
  have ends := endsItem_others others left
  refine (gives_checkItemEnd rest ends).bind rest fun checked adds' rest => ?_
  have place := adds'.later.place.trans place
  have adds := adds.trans adds'
  have gives : Gives (repeatWhile (nextSliceItem nested)) checked ()
      (others.flatMap fun shape => [.ofKind .comma, shape]) :=
    gives_repeatWhile others rfl rest (fun _ _ _ => Or.inl rfl) (Or.inr rfl)
      (fun shape mem _ _ here rest ends => by
        obtain ⟨parts, item, rfl⟩ := items shape mem
        exact gives_nextSliceItem item rest ends (by rw [here, place]; exact deep))
      (fun stage _ rest => Reaches.bind (reaches_matches_not rest rfl
        (reaches_pure ⟨rfl, .refl stage⟩)))
  refine gives.bind rest fun read adds' rest => ?_
  have adds := adds.trans adds'
  refine Reaches.bind (reaches_expect rest rfl fun closed adds' _ => ?_)
  refine reaches_pure (reached closed ?_)
  simpa [Shape.withCommas, Shape.ofKind] using adds.trans adds'

/-- The parts of the first item. The mark of where it stops depends on whether it is the last. -/
inductive IsFirstItem (nested : Nested) (levels : Nat) (last : Bool) : List Shape → Prop
  | index {shape : Shape} (item : IsItem (test nested false) 1 levels shape) :
    IsFirstItem nested levels last [shape]
  | unbounded {start : List Shape} (isStart : IsMarked nested levels start) (only : last = true) :
    IsFirstItem nested levels last
      (start ++ [.ofKind .colon, .node .emptyExpression none []])
  | pair {start stop : List Shape} (isStart : IsMarked nested levels start)
    (isStop : IsPart nested levels stop) (bounded : stop ≠ [] ∨ last = false) :
    IsFirstItem nested levels last (start ++ .ofKind .colon :: stop)
  | triple {start stop step : List Shape} (isStart : IsMarked nested levels start)
    (isStop : IsMarked nested levels stop) (isStep : IsPart nested levels step) :
    IsFirstItem nested levels last
      (start ++ .ofKind .colon :: stop ++ .ofKind .colon :: step)

theorem gives_slice {first : List Shape} {others : List Shape}
    (isFirst : IsFirstItem nested levels others.isEmpty first)
    (items : AreSliceItems nested levels others)
    (rest : stage.rest = Shape.leavesAll (Shape.withCommas (.node .sliceItem none first :: others)) ++
      spelled rbracket :: left) (deep : stage.place.depth + levels ≤ Builder.maxDepth) :
    Gives (slice nested) stage ()
      (Shape.withCommas (.node .sliceItem none first :: others) ++ [.ofKind rbracket]) := by
  simp only [Shape.withCommas, Shape.leavesAll_cons, Shape.leaves_node, List.append_assoc] at rest
  have ends := endsItem_others others left
  refine Reaches.bind (reaches_mark fun item marked inside same => ?_)
  have rest := same.trans rest
  have deep {now : Stage lexed} (place : now.place = stage.place) :
      now.place.depth + levels ≤ Builder.maxDepth := by
    rw [place]
    exact deep
  cases isFirst with
  | index isItem =>
      rw [Shape.leavesAll_cons, Shape.leavesAll_nil, List.append_nil] at rest
      have start : Gives (sliceStart nested) marked () [_] :=
        Reaches.bind (reaches_isAt rest (isItem.starts.ne (by exact Nat.one_pos) _)
          ((isItem.reads marked _ rest (EndsPart.looser (.inr ends))
            (deep inside.later.place)).require _))
      refine start.bindShape rest fun started adds rest => ?_
      have inside := inside.adds adds
      refine Reaches.bind (reaches_isAt rest ends.noColon ?_)
      exact reaches_sliceRest items inside rest (deep inside.later.place) fun after adds => ⟨rfl, adds⟩
  | unbounded isStart only =>
      cases List.isEmpty_iff.1 only
      simp only [Shape.leavesAll_append, Shape.leavesAll_cons, Shape.leaves_ofKind,
        List.append_assoc, List.cons_append, List.nil_append] at rest
      refine (gives_sliceStart isStart rest (deep inside.later.place)).bind rest
        fun started adds rest => ?_
      have inside := inside.adds adds
      refine Reaches.bind (reaches_isAt rest rfl ?_)
      refine Reaches.bind (reaches_advance rest fun colon adds rest => ?_)
      have inside := inside.adds adds
      refine Reaches.bind (reaches_isAt rest rfl ?_)
      refine (gives_emptyNode colon _).bind rest fun marked adds rest => ?_
      have inside := inside.adds adds
      refine Reaches.bind (reaches_done inside fun made adds same => ?_)
      refine reaches_advance (same.trans rest) fun after adds' _ => ⟨rfl, ?_⟩
      simpa [Shape.withCommas, Shape.ofKind] using adds.trans adds'
  | pair isStart isStop bounded =>
      simp only [Shape.leavesAll_append, Shape.leavesAll_cons, Shape.leaves_ofKind,
        List.append_assoc, List.cons_append, List.nil_append] at rest
      refine (gives_sliceStart isStart rest (deep inside.later.place)).bind rest
        fun started adds rest => ?_
      have inside := inside.adds adds
      refine Reaches.bind (reaches_isAt rest rfl ?_)
      refine Reaches.bind (reaches_advance rest fun colon adds rest => ?_)
      have inside := inside.adds adds
      refine Reaches.bind (reaches_isAt rest (show _ = false by
        cases isStop with
        | present item =>
            rw [Shape.leavesAll_cons, Shape.leavesAll_nil, List.append_nil]
            exact item.starts.ne (by exact Nat.one_pos) _
        | absent => cases others with
          | nil => rcases bounded with none | last <;> contradiction
          | cons => rfl) ?_)
      refine (gives_sliceStop isStop rest ends (deep inside.later.place)).bind rest
        fun stopped adds rest => ?_
      have inside := inside.adds adds
      have noStep : Gives (sliceStep nested) stopped () [] :=
        Reaches.bind (reaches_matches_not rest ends.noColon (reaches_pure ⟨rfl, .refl stopped⟩))
      refine noStep.bind rest fun stepped adds rest => ?_
      have inside := inside.adds adds
      refine reaches_sliceRest items inside rest (deep inside.later.place) fun after adds => ⟨rfl, ?_⟩
      simpa [Shape.ofKind] using adds
  | triple isStart isStop isStep =>
      simp only [Shape.leavesAll_append, Shape.leavesAll_cons, Shape.leaves_ofKind,
        List.append_assoc, List.cons_append, List.nil_append] at rest
      refine (gives_sliceStart isStart rest (deep inside.later.place)).bind rest
        fun started adds rest => ?_
      have inside := inside.adds adds
      refine Reaches.bind (reaches_isAt rest rfl ?_)
      refine Reaches.bind (reaches_advance rest fun colon adds rest => ?_)
      have inside := inside.adds adds
      refine Reaches.bind (reaches_isAt rest (show _ = false by
        cases isStop with
        | present item =>
            rw [Shape.leavesAll_cons, Shape.leavesAll_nil, List.append_nil]
            exact item.starts.ne (by exact Nat.one_pos) _
        | absent => rfl) ?_)
      refine (gives_sliceStop_marked isStop rest (deep inside.later.place)).bind rest
        fun stopped adds rest => ?_
      have inside := inside.adds adds
      refine (gives_sliceStep isStep rest ends (deep inside.later.place)).bind
        (rest.trans (by rw [Shape.leavesAll_cons, Shape.leaves_ofKind, List.cons_append,
          List.nil_append, List.cons_append])) fun stepped adds rest => ?_
      have inside := inside.adds adds
      refine reaches_sliceRest items inside rest (deep inside.later.place) fun after adds => ⟨rfl, ?_⟩
      simpa [Shape.ofKind] using adds

/-- The brackets of a slice after the opening one. -/
theorem gives_subscript_slice {first : List Shape} {others : List Shape}
    (isFirst : IsFirstItem nested levels others.isEmpty first)
    (items : AreSliceItems nested levels others)
    (colon : ∀ left, hasSliceColon
      (Shape.leavesAll (Shape.withCommas (.node .sliceItem none first :: others)) ++
        spelled rbracket :: left) 0 0 = true)
    (rest : stage.rest = Shape.leavesAll
      (Shape.withCommas (.node .sliceItem none first :: others) ++ [.ofKind rbracket]) ++ left)
    (deep : stage.place.depth + levels ≤ Builder.maxDepth) :
    Gives (subscript nested) stage .sliceExpression
      (Shape.withCommas (.node .sliceItem none first :: others) ++ [.ofKind rbracket]) := by
  rw [Shape.leavesAll_append, List.append_assoc] at rest
  refine Reaches.bind (reaches_atSlice rest (colon left) ?_)
  refine (gives_slice isFirst items rest deep).andThen fun after adds => ?_
  exact reaches_pure ⟨rfl, adds⟩

end Grammar
end StarlarkSyntax
