import StarlarkSyntax.Proofs.Print.Comprehension
/-!
# Reading displays

What stands in brackets: expressions in parentheses, lists, sets, dictionaries, and comprehensions of
lists and dictionaries.
-/

set_option autoImplicit false

namespace StarlarkSyntax

open Layout (Piece)
open Stage (Inside Adds)

namespace Grammar

variable {lexed : Lexed} {nested : Nested} {target : Bool} {levels : Nat}
  {stage start : Stage lexed} {left : List Piece} {shapes made : List Shape} {shape : Shape}
  {marker : Marker}

/-- A closing bracket ends items of any sort. -/
theorem endsItems_closing {rank : Nat} (pos : 0 < rank) (delimiter : Delimiter) (left : List Piece) :
    EndsItems rank (spelled (.closing delimiter) :: left) :=
  ⟨looser_closing pos delimiter left, nofun, fun kind same => by cases same; exact ⟨rfl, nofun⟩⟩

/-! ## Parentheses -/

theorem makes_emptyTuple : Makes (display nested .parenthesis target) levels
    (.node .tupleExpression none [.ofKind lpar, .ofKind rpar]) := by
  intro lexed stage left rest deep
  refine Reaches.bind (reaches_mark fun expression marked inside same => ?_)
  refine Reaches.bind (reaches_advance (same.trans rest) fun opened adds rest => ?_)
  have inside := inside.adds adds
  refine Reaches.bind (reaches_matches rest rfl fun closed adds _ => ?_)
  exact reaches_done (inside.adds adds) fun after adds _ => ⟨rfl, adds⟩

/-- Nothing is skipped where one of the tokens comes that end the skipping. -/
theorem gives_skipUntil {stops : List Kind} (rest : stage.rest = left)
    (stop : (nextKind left).any stops.contains = true) :
    Gives (skipUntil stops) stage false [] := by
  unfold skipUntil
  rw [← bind_pure (loop _ _)]
  have notEmpty : left.isEmpty = false := by
    cases left with
    | nil => cases stop
    | cons => rfl
  refine reaches_loop (Reaches.bind (reaches_atEnd rest notEmpty ?_))
  refine Reaches.bind (reaches_isAtAny rest stop ?_)
  exact reaches_pure (reaches_pure ⟨rfl, .refl stage⟩)

theorem makes_parenthesized (reads : Reads (tuple nested target) levels shape (EndsItems 1))
    (starts : Starts 1 shape.leaves) : Makes (display nested .parenthesis target) levels
      (.node .parenthesizedExpression none [.ofKind lpar, shape, .ofKind rpar]) := by
  intro lexed stage left rest deep
  simp only [Shape.leaves_node, Shape.leavesAll_cons, Shape.leavesAll_nil, Shape.leaves_ofKind,
    List.append_assoc, List.cons_append, List.nil_append] at rest
  refine Reaches.bind (reaches_mark fun expression marked inside same => ?_)
  refine Reaches.bind (reaches_advance (same.trans rest) fun opened adds rest => ?_)
  have inside := inside.adds adds
  refine Reaches.bind (reaches_matches_not rest (starts.ne (by exact Nat.one_pos) _) ?_)
  refine reads.bind rest (endsItems_closing Nat.one_pos _ _) (by rw [inside.later.place]; exact deep)
    fun read adds rest => ?_
  have inside := inside.adds adds
  refine Reaches.bind (reaches_isAt rest rfl ?_)
  refine Reaches.bind (reaches_mark fun junk marked' inside' same => ?_)
  refine (gives_skipUntil (same.trans rest) rfl).andThen fun skipped adds => ?_
  have rest := adds.left (same.trans rest)
  refine Reaches.bind (reaches_drop (inside'.adds adds) fun dropped adds same => ?_)
  have inside := inside.adds adds
  refine Reaches.bind (reaches_expect (same.trans rest) rfl fun closed adds _ => ?_)
  exact reaches_done (inside.adds adds) fun after adds _ => ⟨rfl, adds⟩

/-! ## Lists -/

theorem makes_emptyList : Makes (display nested .bracket target) levels
    (.node .listLiteralExpression none [.ofKind lbracket, .ofKind rbracket]) := by
  intro lexed stage left rest deep
  refine Reaches.bind (reaches_mark fun expression marked inside same => ?_)
  refine Reaches.bind (reaches_advance (same.trans rest) fun opened adds rest => ?_)
  have inside := inside.adds adds
  refine Reaches.bind (reaches_matches rest rfl fun closed adds _ => ?_)
  exact reaches_done (inside.adds adds) fun after adds _ => ⟨rfl, adds⟩

/-- What comes after an element ends it. -/
theorem looser_elements_last (shapes : List Shape) (comma : Bool) (delimiter : Delimiter)
    (left : List Piece) :
    Looser 1 (Shape.leavesAll (shapes.flatMap fun shape => [.ofKind .comma, shape]) ++
      (Shape.leavesAll (lastComma comma) ++ spelled (.closing delimiter) :: left)) := by
  cases shapes with
  | nil => exact looser_lastComma comma delimiter left
  | cons => exact Nat.one_pos

theorem looser_elements (shapes : List Shape) (delimiter : Delimiter) (left : List Piece) :
    Looser 1 (Shape.leavesAll (shapes.flatMap fun shape => [.ofKind .comma, shape]) ++
      spelled (.closing delimiter) :: left) :=
  looser_elements_last shapes false delimiter left

theorem nextKind_elements_last (shapes : List Shape) (comma : Bool) (delimiter : Delimiter)
    (left : List Piece) :
    let more := Shape.leavesAll (shapes.flatMap fun shape => [.ofKind .comma, shape]) ++
      (Shape.leavesAll (lastComma comma) ++ spelled (.closing delimiter) :: left)
    nextKind more = some .comma ∨ nextKind more = some (.closing delimiter) := by
  cases shapes with
  | nil =>
      cases comma with
      | false => exact .inr rfl
      | true => exact .inl rfl
  | cons => exact .inl rfl

theorem nextKind_elements (shapes : List Shape) (delimiter : Delimiter) (left : List Piece) :
    nextKind (Shape.leavesAll (shapes.flatMap fun shape => [.ofKind .comma, shape]) ++
      spelled (.closing delimiter) :: left) = some .comma ∨
    nextKind (Shape.leavesAll (shapes.flatMap fun shape => [.ofKind .comma, shape]) ++
      spelled (.closing delimiter) :: left) = some (.closing delimiter) :=
  nextKind_elements_last shapes false delimiter left

/-- A list is read at places of some sort if its elements are. There may be a comma after the last. -/
theorem gives_list {holds : Place → Prop}
    (elements : ∀ element ∈ shape :: shapes, IsElement holds (test nested target) element) (comma : Bool)
    (rest : stage.rest = (Shape.node .listLiteralExpression none (.ofKind lbracket ::
      Shape.withCommas (shape :: shapes) ++ lastComma comma ++ [.ofKind rbracket])).leaves ++ left)
    (here : holds stage.place) :
    Gives (display nested .bracket target) stage () [.node .listLiteralExpression none
      (.ofKind lbracket :: Shape.withCommas (shape :: shapes) ++ lastComma comma ++
        [.ofKind rbracket])] := by
  obtain ⟨first, others⟩ := List.forall_mem_cons.1 elements
  simp only [Shape.withCommas, Shape.leaves_node, Shape.leavesAll_cons, Shape.leavesAll_append,
    Shape.leavesAll_nil, Shape.leaves_ofKind, List.append_assoc, List.cons_append,
    List.nil_append] at rest
  have follow := nextKind_elements_last shapes comma .bracket left
  refine Reaches.bind (reaches_mark fun expression marked inside same => ?_)
  refine Reaches.bind (reaches_advance (same.trans rest) fun opened adds rest => ?_)
  have inside := inside.adds adds
  refine Reaches.bind (reaches_matches_not rest (first.starts.ne (by exact Nat.one_pos) _) ?_)
  refine first.reads.require rest (looser_elements_last shapes comma .bracket left)
    (by rw [inside.later.place]; exact here) fun read adds rest => ?_
  have inside := inside.adds adds
  refine Reaches.bind (reaches_isAt rest (show _ = false by
    rcases follow with next | next <;> rw [next] <;> rfl) ?_)
  refine reaches_elements_last others comma inside rest (by rw [inside.later.place]; exact here)
    fun after adds => ⟨rfl, ?_⟩
  simpa [Shape.withCommas, Shape.ofKind] using adds

theorem makes_list (items : ∀ item ∈ shape :: shapes, IsItem (test nested target) 1 levels item) :
    Makes (display nested .bracket target) levels (.node .listLiteralExpression none
      (.ofKind lbracket :: Shape.withCommas (shape :: shapes) ++ [.ofKind rbracket])) := by
  intro lexed stage left rest deep
  have noComma : .ofKind lbracket :: Shape.withCommas (shape :: shapes) ++ lastComma false =
      .ofKind lbracket :: Shape.withCommas (shape :: shapes) := List.append_nil _
  rw [← noComma] at rest ⊢
  exact gives_list (fun item mem => (items item mem).element) false rest deep

/-- Clauses begin with their word. -/
theorem leavesAll_clauses {first : List Shape} {others : List (List Shape)}
    (clauses : ∀ shapes ∈ first :: others, ∃ target range conditions,
      IsClause nested levels target range conditions ∧ shapes = clauseShapes target range conditions) :
    ∃ more, Shape.leavesAll (first ++ others.flatten) = spelled (.reserved .forWord) :: more := by
  obtain ⟨target, range, conditions, -, rfl⟩ := clauses first List.mem_cons_self
  exact ⟨_, rfl⟩

theorem makes_listComprehension {first : List Shape} {others : List (List Shape)}
    (item : IsItem (test nested target) 1 levels shape)
    (clauses : ∀ shapes ∈ first :: others, ∃ target range conditions,
      IsClause nested levels target range conditions ∧ shapes = clauseShapes target range conditions) :
    Makes (display nested .bracket target) levels (.node .listCompExpression none
      (.ofKind lbracket :: shape :: first ++ others.flatten ++ [.ofKind rbracket])) := by
  intro lexed stage left rest deep
  obtain ⟨more, word⟩ := leavesAll_clauses clauses
  have rest : stage.rest = spelled lbracket :: (shape.leaves ++
      (Shape.leavesAll (first ++ others.flatten) ++ spelled rbracket :: left)) := by
    rw [rest]
    simp
  refine Reaches.bind (reaches_mark fun expression marked inside same => ?_)
  refine Reaches.bind (reaches_advance (same.trans rest) fun opened adds rest => ?_)
  have inside := inside.adds adds
  refine Reaches.bind (reaches_matches_not rest (item.starts.ne (by exact Nat.one_pos) _) ?_)
  refine item.reads.require rest (by rw [word]; exact Nat.one_pos)
    (by rw [inside.later.place]; exact deep) fun read adds rest => ?_
  have inside := inside.adds adds
  refine Reaches.bind (reaches_isAt rest (show _ = true by rw [word]; rfl) ?_)
  refine reaches_comprehension clauses nofun inside rest (by rw [inside.later.place]; exact deep)
    fun after adds => ⟨rfl, ?_⟩
  simpa [Shape.ofKind] using adds

/-! ## Sets -/

theorem makes_set (items : ∀ item ∈ shape :: shapes, IsItem (test nested false) 1 levels item) :
    Makes (display nested .brace target) levels (.node .dictLiteralExpression none
      (.ofKind lbrace :: Shape.withCommas (shape :: shapes) ++ [.ofKind rbrace])) := by
  intro lexed stage left rest deep
  obtain ⟨first, others⟩ := List.forall_mem_cons.1 items
  simp only [Shape.withCommas, Shape.leaves_node, Shape.leavesAll_cons, Shape.leavesAll_append,
    Shape.leavesAll_nil, Shape.leaves_ofKind, List.append_assoc, List.cons_append,
    List.nil_append] at rest
  have follow := nextKind_elements shapes .brace left
  refine Reaches.bind (reaches_mark fun expression marked inside same => ?_)
  refine Reaches.bind (reaches_advance (same.trans rest) fun opened adds rest => ?_)
  have inside := inside.adds adds
  refine Reaches.bind (reaches_matches_not rest (first.starts.ne (by exact Nat.one_pos) _) ?_)
  refine Reaches.bind (reaches_isAt rest (first.starts.ne (by exact Nat.one_pos) _) ?_)
  refine Reaches.bind (reaches_mark fun pair marked' inside' same => ?_)
  have place := inside'.later.place.trans inside.later.place
  refine first.reads.bind (same.trans rest) (looser_elements shapes .brace left)
    (by rw [place]; exact deep) fun read adds rest => ?_
  refine Reaches.bind (reaches_matches_not rest (show _ = false by
    rcases follow with next | next <;> rw [next] <;> rfl) ?_)
  refine Reaches.bind (reaches_drop (inside'.adds adds) fun dropped adds same => ?_)
  have inside := inside.adds adds
  have rest := same.trans rest
  refine Reaches.bind (reaches_isAt rest (show _ = false by
    rcases follow with next | next <;> rw [next] <;> rfl) ?_)
  refine reaches_elements others inside rest (by rw [inside.later.place]; exact deep)
    fun after adds => ⟨rfl, ?_⟩
  simpa [Shape.withCommas, Shape.ofKind] using adds

/-! ## Dictionaries -/

theorem makes_emptyDict : Makes (display nested .brace target) levels
    (.node .dictLiteralExpression none [.ofKind lbrace, .ofKind rbrace]) := by
  intro lexed stage left rest deep
  refine Reaches.bind (reaches_mark fun expression marked inside same => ?_)
  refine Reaches.bind (reaches_advance (same.trans rest) fun opened adds rest => ?_)
  have inside := inside.adds adds
  refine Reaches.bind (reaches_matches rest rfl fun closed adds _ => ?_)
  exact reaches_done (inside.adds adds) fun after adds _ => ⟨rfl, adds⟩

/-- A key and a value with a colon between them. -/
def entryShape (key value : Shape) : Shape :=
  .node .keyValueExpression none [key, .ofKind .colon, value]

/-- A key and a value are read. -/
structure IsEntry (nested : Nested) (levels : Nat) (key value : Shape) : Prop where
  key : IsItem (test nested false) 1 levels key
  value : IsItem (test nested false) 1 levels value

variable {key value : Shape}

theorem leaves_entryShape (key value : Shape) :
    (entryShape key value).leaves = key.leaves ++ spelled .colon :: value.leaves := by
  simp [entryShape]

theorem IsEntry.reads (entry : IsEntry nested levels key value) :
    Reads (keyValue nested) levels (entryShape key value) (Looser 1) := by
  intro lexed stage left rest looser deep
  rw [leaves_entryShape, List.append_assoc, List.cons_append] at rest
  refine Reaches.bind (reaches_mark fun pair marked inside same => ?_)
  refine entry.key.reads.bind (same.trans rest) Nat.one_pos (by rw [inside.later.place]; exact deep)
    fun keyed adds rest => ?_
  have inside := inside.adds adds
  refine Reaches.bind (reaches_expect rest rfl fun colon adds rest => ?_)
  have inside := inside.adds adds
  refine entry.value.reads.bind rest looser (by rw [inside.later.place]; exact deep)
    fun valued adds _ => ?_
  refine Reaches.bind (reaches_done (inside.adds adds) fun after adds _ => ?_)
  exact reaches_pure ⟨rfl, adds⟩

/-- The rule for the entries of a dictionary after the first. -/
def nextEntry (nested : Nested) : ParseM Bool := do
  if ← isAt rbrace then pure false
  else
    let _ ← expect .comma "expected ','"
    if ← isAtOperator .starStar then doubleStar nested else keyValue nested

theorem gives_nextEntry (entry : IsEntry nested levels key value)
    (rest : stage.rest = Shape.leavesAll [.ofKind .comma, entryShape key value] ++ left)
    (looser : Looser 1 left) (deep : stage.place.depth + levels ≤ Builder.maxDepth) :
    Gives (nextEntry nested) stage true [.ofKind .comma, entryShape key value] := by
  simp only [Shape.leavesAll_cons, Shape.leavesAll_nil, List.append_nil, Shape.leaves_ofKind,
    List.cons_append, List.nil_append] at rest
  have noStars : (nextKind ((entryShape key value).leaves ++ left) ==
      some (.operator .starStar)) = false := by
    rw [leaves_entryShape, List.append_assoc]
    exact entry.key.starts.ne (show beginning (.operator .starStar) < 1 from Nat.one_pos) _
  refine Reaches.bind (reaches_isAt rest rfl ?_)
  refine Reaches.bind (reaches_expect rest rfl fun middle adds rest => ?_)
  refine Reaches.bind (reaches_isAt rest noStars ?_)
  refine (entry.reads middle left rest looser (by rw [adds.later.place]; exact deep)).mono ?_
  exact fun _ after holds => ⟨holds.1, adds.trans holds.2⟩

theorem reaches_entries {post : Unit → Stage lexed → Prop}
    (items : ∀ shape ∈ shapes, ∃ key value, IsEntry nested levels key value ∧
      shape = entryShape key value)
    (inside : Inside start marker made stage)
    (rest : stage.rest = Shape.leavesAll (shapes.flatMap fun shape => [.ofKind .comma, shape]) ++
      spelled rbrace :: left) (deep : stage.place.depth + levels ≤ Builder.maxDepth)
    (reached : ∀ after, Adds start [.node .dictLiteralExpression none (made ++
      (shapes.flatMap fun shape => [.ofKind .comma, shape]) ++ [.ofKind rbrace])] after →
      post () after) :
    Reaches (entries nested marker) stage post := by
  have gives : Gives (repeatWhile (nextEntry nested)) stage ()
      (shapes.flatMap fun shape => [.ofKind .comma, shape]) :=
    gives_repeatWhile shapes rfl rest (fun _ _ _ => looser_comma Nat.one_pos _)
      (looser_closing Nat.one_pos .brace left)
      (fun shape mem _ _ here rest looser => by
        obtain ⟨key, value, entry, rfl⟩ := items shape mem
        exact gives_nextEntry entry rest looser (by rw [here]; exact deep))
      (fun stage _ rest => Reaches.bind (reaches_isAt rest (beq_self_eq_true _)
        (reaches_pure ⟨rfl, .refl stage⟩)))
  refine gives.bind rest fun middle adds rest => ?_
  have inside := inside.adds adds
  refine Reaches.bind (reaches_expect rest rfl fun last adds _ => ?_)
  exact reaches_done (inside.adds adds) fun after adds _ => reached after adds

/-- Braces up to the first entry, which shows that they are no set. -/
theorem reaches_braces {post : Unit → Stage lexed → Prop} (entry : IsEntry nested levels key value)
    (rest : stage.rest = spelled lbrace :: ((entryShape key value).leaves ++ left))
    (looser : Looser 1 left) (deep : stage.place.depth + levels ≤ Builder.maxDepth)
    (reached : ∀ marker after, Inside stage marker [.ofKind lbrace, entryShape key value] after →
      after.rest = left → Reaches (do
        if ← isAtWord .forWord then
          comprehension nested marker (some rbrace) .dictCompExpression
        else entries nested marker) after post) :
    Reaches (braces nested) stage post := by
  rw [leaves_entryShape, List.append_assoc, List.cons_append] at rest
  refine Reaches.bind (reaches_mark fun expression marked inside same => ?_)
  refine Reaches.bind (reaches_advance (same.trans rest) fun opened adds rest => ?_)
  have inside := inside.adds adds
  refine Reaches.bind (reaches_matches_not rest (entry.key.starts.ne (by exact Nat.one_pos) _) ?_)
  refine Reaches.bind (reaches_isAt rest (entry.key.starts.ne (by exact Nat.one_pos) _) ?_)
  refine Reaches.bind (reaches_mark fun pair marked' inside' same => ?_)
  have place := inside'.later.place.trans inside.later.place
  refine entry.key.reads.bind (same.trans rest) Nat.one_pos (by rw [place]; exact deep)
    fun keyed adds rest => ?_
  have inside' := inside'.adds adds
  refine Reaches.bind (reaches_matches rest rfl fun colon adds rest => ?_)
  have inside' := inside'.adds adds
  refine entry.value.reads.bind rest looser
    (by rw [inside'.later.place, inside.later.place]; exact deep) fun valued adds rest => ?_
  refine Reaches.bind (reaches_done (inside'.adds adds) fun paired adds same => ?_)
  exact reached expression paired (inside.adds adds) (same.trans rest)

theorem makes_dict (items : ∀ item ∈ shape :: shapes, ∃ key value,
      IsEntry nested levels key value ∧ item = entryShape key value) :
    Makes (display nested .brace target) levels (.node .dictLiteralExpression none
      (.ofKind lbrace :: Shape.withCommas (shape :: shapes) ++ [.ofKind rbrace])) := by
  intro lexed stage left rest deep
  obtain ⟨⟨key, value, entry, rfl⟩, others⟩ := List.forall_mem_cons.1 items
  simp only [Shape.withCommas, Shape.leaves_node, Shape.leavesAll_cons, Shape.leavesAll_append,
    Shape.leavesAll_nil, Shape.leaves_ofKind, List.append_assoc, List.cons_append,
    List.nil_append] at rest
  have follow := nextKind_elements shapes .brace left
  refine reaches_braces entry rest (looser_elements shapes .brace left) deep
    fun marker read inside rest => ?_
  refine Reaches.bind (reaches_isAt rest (show _ = false by
    rcases follow with next | next <;> rw [next] <;> rfl) ?_)
  refine reaches_entries others inside rest (by rw [inside.later.place]; exact deep)
    fun after adds => ⟨rfl, ?_⟩
  simpa [Shape.withCommas, Shape.ofKind] using adds

theorem makes_dictComprehension {first : List Shape} {others : List (List Shape)}
    (entry : IsEntry nested levels key value)
    (clauses : ∀ shapes ∈ first :: others, ∃ target range conditions,
      IsClause nested levels target range conditions ∧ shapes = clauseShapes target range conditions) :
    Makes (display nested .brace target) levels (.node .dictCompExpression none
      (.ofKind lbrace :: entryShape key value :: first ++ others.flatten ++ [.ofKind rbrace])) := by
  intro lexed stage left rest deep
  have rest : stage.rest = spelled lbrace :: ((entryShape key value).leaves ++
      (Shape.leavesAll (first ++ others.flatten) ++ spelled rbrace :: left)) := by
    rw [rest]
    simp
  obtain ⟨more, word⟩ := leavesAll_clauses clauses
  refine reaches_braces entry rest (by rw [word]; exact Nat.one_pos) deep
    fun marker read inside rest => ?_
  refine Reaches.bind (reaches_isAt rest (show _ = true by rw [word]; rfl) ?_)
  refine reaches_comprehension clauses nofun inside rest (by rw [inside.later.place]; exact deep)
    fun after adds => ⟨rfl, ?_⟩
  simpa [Shape.ofKind] using adds

end Grammar
end StarlarkSyntax
