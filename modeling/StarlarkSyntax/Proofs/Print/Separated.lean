import StarlarkSyntax.Proofs.Print.Ahead
/-!
# Reading items with commas between them

Tuples, arguments and parameters are items with commas between them, up to a token that ends them.
-/

set_option autoImplicit false

namespace StarlarkSyntax

open Layout (Piece)
open Stage (Inside Adds)

namespace Grammar

variable {lexed : Lexed} {nested : Nested} {target : Bool} {levels : Nat} {rank : Nat}
  {stage start : Stage lexed} {left : List Piece} {shapes made : List Shape} {marker : Marker}

/-- The rule reads the shape where a comma may follow, and the shape begins an expression. -/
structure IsItem (rule : ParseM Bool) (rank levels : Nat) (shape : Shape) : Prop where
  reads : Reads rule levels shape (Looser rank)
  starts : Starts 1 shape.leaves

/-- What follows the items ends them: it goes on with none of them, and begins no other. -/
structure EndsItems (rank : Nat) (left : List Piece) : Prop where
  looser : Looser rank left
  noComma : nextKind left ≠ some .comma
  absent : Absent left

theorem looser_comma (pos : 0 < rank) (left : List Piece) : Looser rank (spelled .comma :: left) :=
  pos

/-! ## Tuples -/

/-- The rule for the items of a tuple after the first. -/
def moreItems (item : ParseM Bool) : ParseM Bool := do
  if !(← matches? .comma) then pure false
  else
    let place ← mark
    if ← item then
      drop place
      pure true
    else
      rollback place
      pure false

variable {item : ParseM Bool}

theorem gives_moreItems {shape : Shape} (reads : Reads item levels shape (Looser rank))
    (rest : stage.rest = Shape.leavesAll [.ofKind .comma, shape] ++ left)
    (looser : Looser rank left) (deep : stage.place.depth + levels ≤ Builder.maxDepth) :
    Gives (moreItems item) stage true [.ofKind .comma, shape] := by
  simp only [Shape.leavesAll_cons, Shape.leavesAll_nil, List.append_nil, Shape.leaves_ofKind,
    List.cons_append, List.nil_append] at rest
  refine Reaches.bind (reaches_matches rest rfl fun middle adds rest => ?_)
  refine Reaches.bind (reaches_mark fun place marked inside same => ?_)
  have here : marked.place = stage.place := inside.later.place.trans adds.later.place
  refine reads.bind (same.trans rest) looser (by rw [here]; exact deep) fun after adds' rest => ?_
  refine Reaches.bind (reaches_drop (inside.adds adds') fun _ adds'' _ => ?_)
  exact reaches_pure ⟨rfl, adds.trans adds''⟩

/-- No comma comes. -/
theorem gives_moreItems_none (rest : stage.rest = left) (noComma : nextKind left ≠ some .comma) :
    Gives (moreItems item) stage false [] :=
  Reaches.bind (reaches_matches_not rest (by rw [beq_eq_false_iff_ne]; exact noComma)
    (reaches_pure ⟨rfl, .refl stage⟩))

/-- A comma comes, and no item after it. -/
theorem gives_moreItems_comma (declines : Declines item levels Absent)
    (rest : stage.rest = spelled .comma :: left) (absent : Absent left)
    (deep : stage.place.depth + levels ≤ Builder.maxDepth) :
    Gives (moreItems item) stage false [.ofKind .comma] := by
  refine Reaches.bind (reaches_matches rest rfl fun middle adds rest => ?_)
  refine Reaches.bind (reaches_mark fun place marked inside same => ?_)
  have here : marked.place = stage.place := inside.later.place.trans adds.later.place
  refine declines.bind (same.trans rest) absent (by rw [here]; exact deep) fun after adds' _ => ?_
  refine Reaches.bind (reaches_rollback (inside.adds adds') fun _ adds'' _ => ?_)
  exact reaches_pure ⟨rfl, adds.trans adds''⟩

theorem gives_moreItems_all (pos : 0 < rank)
    (reads : ∀ shape ∈ shapes, Reads item levels shape (Looser rank))
    (rest : stage.rest =
      Shape.leavesAll (shapes.flatMap fun shape => [.ofKind .comma, shape]) ++ left)
    (ends : EndsItems rank left) (deep : stage.place.depth + levels ≤ Builder.maxDepth) :
    Gives (repeatWhile (moreItems item)) stage ()
      (shapes.flatMap fun shape => [.ofKind .comma, shape]) :=
  gives_repeatWhile shapes rfl rest (fun _ _ _ => looser_comma pos _) ends.looser
    (fun shape mem _ _ here rest looser =>
      gives_moreItems (reads shape mem) rest looser (by rw [here]; exact deep))
    (fun _ _ rest => gives_moreItems_none rest ends.noComma)

/-- What a tuple has after its first item: the other items, or just a comma. -/
def afterFirst (others : List Shape) : List Shape :=
  if others.isEmpty then [.ofKind .comma]
  else others.flatMap fun shape => [.ofKind .comma, shape]

theorem leavesAll_afterFirst (others : List Shape) :
    ∃ more, Shape.leavesAll (afterFirst others) = spelled .comma :: more := by
  cases others with
  | nil => exact ⟨[], rfl⟩
  | cons shape others => exact ⟨_, rfl⟩

/-- The rest of a tuple. -/
theorem gives_afterFirst (pos : 0 < rank)
    (reads : ∀ shape ∈ shapes, Reads item levels shape (Looser rank))
    (declines : shapes = [] → Declines item levels Absent)
    (rest : stage.rest = Shape.leavesAll (afterFirst shapes) ++ left)
    (ends : EndsItems rank left) (deep : stage.place.depth + levels ≤ Builder.maxDepth) :
    Gives (repeatWhile (moreItems item)) stage () (afterFirst shapes) := by
  cases shapes with
  | nil =>
      rw [repeatWhile, ← bind_pure (loop _ _)]
      have gives := gives_moreItems_comma (declines rfl) rest ends.absent deep
      refine reaches_loop (Reaches.bind (gives.mono fun _ after holds => ?_))
      obtain ⟨rfl, adds⟩ := holds
      exact reaches_pure (reaches_pure ⟨rfl, adds⟩)
  | cons shape shapes => exact gives_moreItems_all pos reads rest ends deep

/-- A single item that no comma follows is no tuple. -/
theorem ReadsWhere.tupleOf {holds : Place → Prop} {shape : Shape}
    (reads : ReadsWhere holds item shape (Looser rank)) :
    ReadsWhere holds (Grammar.tupleOf item) shape (EndsItems rank) := by
  intro lexed stage left rest ends here
  refine Reaches.bind (reaches_mark fun tuple marked inside same => ?_)
  refine reads.bind (same.trans rest) ends.looser (by rw [inside.later.place]; exact here)
    fun after adds rest => ?_
  refine Reaches.bind (reaches_isAt rest (by rw [beq_eq_false_iff_ne]; exact ends.noComma) ?_)
  exact Reaches.bind (reaches_drop (inside.adds adds) fun _ adds _ => reaches_pure ⟨rfl, adds⟩)

theorem Reads.tupleOf {shape : Shape} (reads : Reads item levels shape (Looser rank)) :
    Reads (tupleOf item) levels shape (EndsItems rank) :=
  reads_iff.2 (reads_iff.1 reads).tupleOf

/-- Items with commas between them, or one item with a comma after it, are a tuple. -/
theorem reads_tupleOf {first : Shape} (pos : 0 < rank)
    (reads : ∀ shape ∈ first :: shapes, Reads item levels shape (Looser rank))
    (declines : shapes = [] → Declines item levels Absent) :
    Reads (tupleOf item) levels (.node .tupleExpression none (first :: afterFirst shapes))
      (EndsItems rank) := by
  intro lexed stage left rest ends deep
  obtain ⟨readsFirst, readsOthers⟩ := List.forall_mem_cons.1 reads
  simp only [Shape.leaves_node, Shape.leavesAll_cons, List.append_assoc] at rest
  obtain ⟨more, comma⟩ := leavesAll_afterFirst shapes
  refine Reaches.bind (reaches_mark fun tuple marked inside same => ?_)
  refine readsFirst.bind (same.trans rest) (by rw [comma]; exact looser_comma pos _)
    (by rw [inside.later.place]; exact deep) fun after adds rest => ?_
  have inside := inside.adds adds
  refine Reaches.bind (reaches_isAt (rest.trans (by rw [comma])) rfl ?_)
  refine Gives.bind (gives_afterFirst pos readsOthers declines rest ends
    (by rw [inside.later.place]; exact deep)) rest fun after adds _ => ?_
  exact Reaches.bind (reaches_done (inside.adds adds) fun _ adds _ => reaches_pure ⟨rfl, adds⟩)

/-! ## Targets -/

theorem gives_targets_single {shape : Shape}
    (reads : Reads (starExpression nested true) levels shape (Looser rank))
    (rest : stage.rest = shape.leaves ++ left) (ends : EndsItems rank left)
    (deep : stage.place.depth + levels ≤ Builder.maxDepth) :
    Gives (targets nested) stage () [shape] := by
  refine Reaches.bind (reaches_mark fun tuple marked inside same => ?_)
  refine reads.bind (same.trans rest) ends.looser (by rw [inside.later.place]; exact deep)
    fun after adds rest => ?_
  refine Reaches.bind (reaches_isAt rest (by rw [beq_eq_false_iff_ne]; exact ends.noComma) ?_)
  exact reaches_drop (inside.adds adds) fun _ adds _ => ⟨rfl, adds⟩

theorem gives_targets {first : Shape} (pos : 0 < rank)
    (reads : ∀ shape ∈ first :: shapes, Reads (starExpression nested true) levels shape (Looser rank))
    (declines : shapes = [] → Declines (starExpression nested true) levels Absent)
    (rest : stage.rest =
      (Shape.node .tupleExpression none (first :: afterFirst shapes)).leaves ++ left)
    (ends : EndsItems rank left) (deep : stage.place.depth + levels ≤ Builder.maxDepth) :
    Gives (targets nested) stage () [.node .tupleExpression none (first :: afterFirst shapes)] := by
  obtain ⟨readsFirst, readsOthers⟩ := List.forall_mem_cons.1 reads
  simp only [Shape.leaves_node, Shape.leavesAll_cons, List.append_assoc] at rest
  obtain ⟨more, comma⟩ := leavesAll_afterFirst shapes
  refine Reaches.bind (reaches_mark fun tuple marked inside same => ?_)
  refine readsFirst.bind (same.trans rest) (by rw [comma]; exact looser_comma pos _)
    (by rw [inside.later.place]; exact deep) fun after adds rest => ?_
  have inside := inside.adds adds
  refine Reaches.bind (reaches_isAt (rest.trans (by rw [comma])) rfl ?_)
  refine Gives.bind (gives_afterFirst pos readsOthers declines rest ends
    (by rw [inside.later.place]; exact deep)) rest fun after adds _ => ?_
  exact reaches_done (inside.adds adds) fun _ adds _ => ⟨rfl, adds⟩

/-! ## Elements of lists and sets -/

theorem looser_closing (pos : 0 < rank) (delimiter : Delimiter) (left : List Piece) :
    Looser rank (spelled (.closing delimiter) :: left) := by
  cases delimiter <;> exact pos

/-- The rule for the elements of a list or a set after the first. -/
def moreElements (nested : Nested) (target : Bool) (close : Kind) : ParseM Bool := do
  if ← isAt close then pure false
  else
    if !(← matches? .comma) then missing ("expected " ++ ("'" ++ close.name ++ "'") ++ " or ','")
    if ← isAt close then pure false
    else if ← test nested target then pure true
    else
      missing ("expected an expression, ',' or " ++ ("'" ++ close.name ++ "'"))
      pure false

/-- The rule reads the shape at places of some sort where a comma may follow, and the shape begins an
expression. -/
structure IsElement (holds : Place → Prop) (rule : ParseM Bool) (shape : Shape) : Prop where
  reads : ReadsWhere holds rule shape (Looser 1)
  starts : Starts 1 shape.leaves

theorem IsItem.element {rule : ParseM Bool} {shape : Shape} (item : IsItem rule 1 levels shape) :
    IsElement (Shallow levels) rule shape := ⟨reads_iff.1 item.reads, item.starts⟩

theorem gives_moreElements {holds : Place → Prop} {delimiter : Delimiter} {shape : Shape}
    (element : IsElement holds (test nested target) shape)
    (rest : stage.rest = Shape.leavesAll [.ofKind .comma, shape] ++ left) (looser : Looser 1 left)
    (here : holds stage.place) :
    Gives (moreElements nested target (.closing delimiter)) stage true [.ofKind .comma, shape] := by
  simp only [Shape.leavesAll_cons, Shape.leavesAll_nil, List.append_nil, Shape.leaves_ofKind,
    List.cons_append, List.nil_append] at rest
  refine Reaches.bind (reaches_isAt rest rfl ?_)
  refine Reaches.bind (reaches_matches rest rfl fun middle adds rest => ?_)
  refine Reaches.bind (reaches_isAt rest (element.starts.ne (by exact Nat.one_pos) left) ?_)
  refine element.reads.bind rest looser (by rw [adds.later.place]; exact here) fun after adds' _ => ?_
  exact reaches_pure ⟨rfl, adds.trans adds'⟩

/-- What may stand between the last element and the closing bracket. -/
def lastComma (comma : Bool) : List Shape := if comma then [.ofKind .comma] else []

/-- After the last element, there may be a comma. -/
theorem gives_moreElements_last (comma : Bool) {delimiter : Delimiter}
    (rest : stage.rest = Shape.leavesAll (lastComma comma) ++ spelled (.closing delimiter) :: left) :
    Gives (moreElements nested target (.closing delimiter)) stage false (lastComma comma) := by
  cases comma with
  | false =>
      exact Reaches.bind (reaches_isAt rest (beq_self_eq_true _) (reaches_pure ⟨rfl, .refl stage⟩))
  | true =>
      refine Reaches.bind (reaches_isAt rest rfl ?_)
      refine Reaches.bind (reaches_matches rest rfl fun middle adds rest => ?_)
      exact Reaches.bind (reaches_isAt rest (beq_self_eq_true _) (reaches_pure ⟨rfl, adds⟩))

theorem looser_lastComma (comma : Bool) (delimiter : Delimiter) (left : List Piece) :
    Looser 1 (Shape.leavesAll (lastComma comma) ++ spelled (.closing delimiter) :: left) := by
  cases comma with
  | false => exact looser_closing Nat.one_pos delimiter left
  | true => exact looser_comma Nat.one_pos _

theorem reaches_elements_last {holds : Place → Prop} {delimiter : Delimiter} {kind : NodeKind}
    {post : Unit → Stage lexed → Prop}
    (elements : ∀ shape ∈ shapes, IsElement holds (test nested target) shape) (comma : Bool)
    (inside : Inside start marker made stage)
    (rest : stage.rest = Shape.leavesAll (shapes.flatMap fun shape => [.ofKind .comma, shape]) ++
      (Shape.leavesAll (lastComma comma) ++ spelled (.closing delimiter) :: left))
    (here : holds stage.place)
    (reached : ∀ after, Adds start [.node kind none (made ++
      ((shapes.flatMap fun shape => [.ofKind .comma, shape]) ++ lastComma comma) ++
        [.ofKind (.closing delimiter)])] after → post () after) :
    Reaches (Grammar.elements nested target marker (.closing delimiter) kind) stage post := by
  have gives : Gives (repeatWhile (moreElements nested target (.closing delimiter))) stage ()
      ((shapes.flatMap fun shape => [.ofKind .comma, shape]) ++ lastComma comma) :=
    gives_repeatWhile_append shapes rfl rest (fun _ _ _ => looser_comma Nat.one_pos _)
      (looser_lastComma comma delimiter left)
      (fun shape mem _ _ same rest looser =>
        gives_moreElements (elements shape mem) rest looser (by rw [same]; exact here))
      (fun _ _ rest => gives_repeatWhile_end (gives_moreElements_last comma rest))
  rw [← List.append_assoc, ← Shape.leavesAll_append] at rest
  refine gives.bind rest fun middle adds rest => ?_
  have inside := inside.adds adds
  refine Reaches.bind (reaches_expect rest rfl fun last adds _ => ?_)
  exact reaches_done (inside.adds adds) fun after adds _ => reached after adds

theorem reaches_elements {delimiter : Delimiter} {kind : NodeKind}
    {post : Unit → Stage lexed → Prop}
    (items : ∀ shape ∈ shapes, IsItem (test nested target) 1 levels shape)
    (inside : Inside start marker made stage)
    (rest : stage.rest = Shape.leavesAll (shapes.flatMap fun shape => [.ofKind .comma, shape]) ++
      spelled (.closing delimiter) :: left) (deep : stage.place.depth + levels ≤ Builder.maxDepth)
    (reached : ∀ after, Adds start [.node kind none (made ++
      (shapes.flatMap fun shape => [.ofKind .comma, shape]) ++ [.ofKind (.closing delimiter)])] after →
      post () after) :
    Reaches (elements nested target marker (.closing delimiter) kind) stage post :=
  reaches_elements_last (fun shape mem => (items shape mem).element) false inside rest deep
    fun after adds => reached after (by simpa [lastComma] using adds)

/-! ## Arguments -/

/-- The rule for the next argument of a call. -/
def nextArgument (nested : Nested) (first : Bool) : ParseM (Bool × Bool) := do
  if ← isAt rpar then pure (false, first)
  else if first then pure (← argument nested true, false)
  else if !(← matches? .comma) then
    missing "expected ',' or ')'"
    pure (false, false)
  else if ← isAt rpar then pure (false, false)
  else pure (← argument nested false, false)

/-- An argument is read, first or not, and is something other than the closing parenthesis. -/
structure IsArgument (nested : Nested) (levels : Nat) (shape : Shape) : Prop where
  reads : ∀ first, Reads (argument nested first) levels shape
    fun left => nextKind left = some .comma ∨ nextKind left = some rpar
  other : ∀ left, (nextKind (shape.leaves ++ left) == some rpar) = false

theorem gives_nextArgument {shape : Shape} (argument : IsArgument nested levels shape)
    (rest : stage.rest = Shape.leavesAll [.ofKind .comma, shape] ++ left)
    (follow : nextKind left = some .comma ∨ nextKind left = some rpar)
    (deep : stage.place.depth + levels ≤ Builder.maxDepth) :
    Gives (nextArgument nested false) stage (true, false) [.ofKind .comma, shape] := by
  simp only [Shape.leavesAll_cons, Shape.leavesAll_nil, List.append_nil, Shape.leaves_ofKind,
    List.cons_append, List.nil_append] at rest
  refine Reaches.bind (reaches_isAt rest rfl ?_)
  refine Reaches.bind (reaches_matches rest rfl fun middle adds rest => ?_)
  refine Reaches.bind (reaches_isAt rest (argument.other left) ?_)
  refine (argument.reads false).bind rest follow (by rw [adds.later.place]; exact deep)
    fun after adds' _ => ?_
  exact reaches_pure ⟨rfl, adds.trans adds'⟩

theorem makes_arguments (items : ∀ shape ∈ shapes, IsArgument nested levels shape) :
    Makes (arguments nested) levels
      (.node .argumentList none (.ofKind lpar :: Shape.withCommas shapes ++ [.ofKind rpar])) := by
  intro lexed stage left rest deep
  simp only [Shape.leaves_node, Shape.leavesAll_cons, Shape.leavesAll_append, Shape.leaves_ofKind,
    List.append_assoc, List.cons_append, List.nil_append, Shape.leavesAll_nil] at rest
  refine Reaches.bind (reaches_mark fun list marked inside same => ?_)
  refine Reaches.bind (reaches_advance (same.trans rest) fun opened adds rest => ?_)
  have inside := inside.adds adds
  cases shapes with
  | nil =>
      refine reaches_loop (Reaches.bind (reaches_isAt rest rfl (reaches_pure ?_)))
      refine Reaches.bind (reaches_expect rest rfl fun closed adds _ => ?_)
      exact reaches_done (inside.adds adds) fun after adds _ => ⟨rfl, adds⟩
  | cons shape shapes =>
      obtain ⟨first, others⟩ := List.forall_mem_cons.1 items
      simp only [Shape.withCommas, Shape.leavesAll_cons, List.append_assoc] at rest
      have follow : nextKind (Shape.leavesAll (shapes.flatMap fun next => [.ofKind .comma, next]) ++
          spelled rpar :: left) = some .comma ∨
          nextKind (Shape.leavesAll (shapes.flatMap fun next => [.ofKind .comma, next]) ++
            spelled rpar :: left) = some rpar := by
        cases shapes with
        | nil => exact .inr rfl
        | cons => exact .inl rfl
      refine reaches_loop (Reaches.bind (reaches_isAt rest (first.other _) ?_))
      refine (first.reads true).bind rest follow (by rw [inside.later.place]; exact deep)
        fun read adds rest => reaches_pure ?_
      have inside := inside.adds adds
      have gives : Gives (loop (nextArgument nested) false) read false
          (shapes.flatMap fun next => [.ofKind .comma, next]) :=
        gives_loop shapes rfl rest (fun _ _ _ => .inl rfl) (.inr rfl)
          (fun shape mem _ _ here rest follow => gives_nextArgument (others shape mem) rest follow
            (by rw [here, inside.later.place]; exact deep))
          (fun stage _ rest => Reaches.bind (reaches_isAt rest rfl
            (reaches_pure ⟨rfl, .refl stage⟩)))
      refine gives.bind rest fun middle adds rest => ?_
      have inside := inside.adds adds
      refine Reaches.bind (reaches_expect rest rfl fun closed adds _ => ?_)
      exact reaches_done (inside.adds adds) fun after adds _ => ⟨rfl, adds⟩

/-! ## Parameters -/

/-- The rule for the next parameter, up to the given kind of token. -/
def nextParameter (nested : Nested) (stop : Kind) (first : Bool) : ParseM (Bool × Bool) := do
  if (← atEnd) || (← isAt stop) then pure (false, first)
  else if first then pure (← parameter nested stop, false)
  else if !(← expect .comma "expected ','") then pure (false, false)
  else if ← isAt stop then pure (false, false)
  else pure (← parameter nested stop, false)

/-- A parameter is read where a comma or the end of the parameters may follow. -/
structure IsParameter (nested : Nested) (stop : Kind) (levels : Nat) (shape : Shape) : Prop where
  reads : Reads (parameter nested stop) levels shape
    fun left => nextKind left = some .comma ∨ nextKind left = some stop
  other : ∀ left, (nextKind (shape.leaves ++ left) == some stop) = false
  notEmpty : shape.leaves ≠ []

theorem gives_nextParameter {shape : Shape} {stop : Kind}
    (parameter : IsParameter nested stop levels shape) (noComma : stop ≠ .comma)
    (rest : stage.rest = Shape.leavesAll [.ofKind .comma, shape] ++ left)
    (follow : nextKind left = some .comma ∨ nextKind left = some stop)
    (deep : stage.place.depth + levels ≤ Builder.maxDepth) :
    Gives (nextParameter nested stop false) stage (true, false) [.ofKind .comma, shape] := by
  simp only [Shape.leavesAll_cons, Shape.leavesAll_nil, List.append_nil, Shape.leaves_ofKind,
    List.cons_append, List.nil_append] at rest
  have other : (nextKind (spelled .comma :: (shape.leaves ++ left)) == some stop) = false := by
    rw [beq_eq_false_iff_ne]
    exact fun same => noComma (Option.some.inj same).symm
  refine Reaches.bind (reaches_atEnd rest rfl ?_)
  refine Reaches.bind (reaches_isAt rest other ?_)
  refine Reaches.bind (reaches_expect rest rfl fun middle adds rest => ?_)
  refine Reaches.bind (reaches_isAt rest (parameter.other left) ?_)
  refine parameter.reads.bind rest follow (by rw [adds.later.place]; exact deep)
    fun after adds' _ => ?_
  exact reaches_pure ⟨rfl, adds.trans adds'⟩

theorem gives_parameters {stop : Kind} (noComma : stop ≠ .comma)
    (items : ∀ shape ∈ shapes, IsParameter nested stop levels shape)
    (rest : stage.rest = Shape.leavesAll (Shape.withCommas shapes) ++ spelled stop :: left)
    (deep : stage.place.depth + levels ≤ Builder.maxDepth) :
    Gives (parameters nested stop) stage () (Shape.withCommas shapes) := by
  have ends (state : Bool) (stage : Stage lexed) (rest : stage.rest = spelled stop :: left) :
      Gives (nextParameter nested stop state) stage (false, state) [] := by
    refine Reaches.bind (reaches_atEnd rest rfl ?_)
    refine Reaches.bind (reaches_isAt rest (beq_self_eq_true _) ?_)
    exact reaches_pure ⟨rfl, .refl stage⟩
  cases shapes with
  | nil =>
      refine reaches_loop ((ends true stage rest).mono fun _ after holds => ?_)
      obtain ⟨rfl, adds⟩ := holds
      exact reaches_pure ⟨rfl, adds⟩
  | cons shape shapes =>
      obtain ⟨first, others⟩ := List.forall_mem_cons.1 items
      simp only [Shape.withCommas, Shape.leavesAll_cons, List.append_assoc] at rest
      have follow : nextKind (Shape.leavesAll (shapes.flatMap fun next => [.ofKind .comma, next]) ++
          spelled stop :: left) = some .comma ∨
          nextKind (Shape.leavesAll (shapes.flatMap fun next => [.ofKind .comma, next]) ++
            spelled stop :: left) = some stop := by
        cases shapes with
        | nil => exact .inr rfl
        | cons => exact .inl rfl
      have notEmpty (left : List Piece) : (shape.leaves ++ left).isEmpty = false :=
        List.isEmpty_eq_false_iff.2 (List.append_ne_nil_of_left_ne_nil first.notEmpty left)
      refine reaches_loop (Reaches.bind (reaches_atEnd rest (notEmpty _) ?_))
      refine Reaches.bind (reaches_isAt rest (first.other _) ?_)
      refine first.reads.bind rest follow deep fun read adds rest => reaches_pure ?_
      have gives : Gives (loop (nextParameter nested stop) false) read false
          (shapes.flatMap fun next => [.ofKind .comma, next]) :=
        gives_loop shapes rfl rest (fun _ _ _ => .inl rfl) (.inr rfl)
          (fun shape mem _ _ here rest follow => gives_nextParameter (others shape mem) noComma rest
            follow (by rw [here, adds.later.place]; exact deep))
          (fun stage _ rest => ends false stage rest)
      exact gives.bind rest fun _ adds' _ => reaches_pure ⟨rfl, adds.trans adds'⟩

end Grammar
end StarlarkSyntax
