import StarlarkSyntax.Proofs.Print.Argument
/-!
# Reading comprehensions

A comprehension is read clause by clause, up to its closing bracket. What follows the range of a
clause, or a condition, may be another condition, so that no `if` can be part of them; only after the
last condition comes something that ends any expression.
-/

set_option autoImplicit false

namespace StarlarkSyntax

open Layout (Piece)
open Stage (Inside Adds)

namespace Grammar

variable {lexed : Lexed} {nested : Nested} {levels : Nat} {stage start : Stage lexed}
  {left : List Piece} {shapes made : List Shape} {shape : Shape} {marker : Marker}
  {kind : NodeKind}

/-- Another clause comes, or a closing bracket. -/
def EndsClause (left : List Piece) : Prop :=
  nextKind left = some (.reserved .forWord) ∨ ∃ delimiter, nextKind left = some (.closing delimiter)

theorem EndsClause.looser (ends : EndsClause left) : Looser 1 left := by
  rcases ends with next | ⟨delimiter, next⟩
  · rw [Looser, next]
    exact Nat.one_pos
  · rw [Looser, next]
    cases delimiter <;> exact Nat.one_pos

/-! ## Conditions -/

/-- The rule for a condition of a clause, if there is one. -/
def nextCondition (nested : Nested) : ParseM Bool := do
  if ← isAtWord .ifWord then
    advance
    require expectedExpression (condition nested)
    pure true
  else pure false

/-- The conditions are read, all but the last of them where another `if` follows. -/
def AreConditions (nested : Nested) (levels : Nat) : List Shape → Prop
  | [] => True
  | [last] => Reads (condition nested) levels last (Looser 1)
  | shape :: shapes =>
    Reads (condition nested) levels shape (Looser 2) ∧ AreConditions nested levels shapes

/-- Conditions with the words before them. -/
def withWords (conditions : List Shape) : List Shape :=
  conditions.flatMap fun shape => [.ofKind (.reserved .ifWord), shape]

theorem reaches_nextCondition {follows : List Piece → Prop}
    {post : Bool → Stage lexed → Prop} (reads : Reads (condition nested) levels shape follows)
    (rest : stage.rest = spelled (.reserved .ifWord) :: (shape.leaves ++ left)) (follow : follows left)
    (deep : stage.place.depth + levels ≤ Builder.maxDepth)
    (reached : ∀ after, Adds stage [.ofKind (.reserved .ifWord), shape] after → after.rest = left →
      post true after) : Reaches (nextCondition nested) stage post := by
  refine Reaches.bind (reaches_isAt rest rfl ?_)
  refine Reaches.bind (reaches_advance rest fun word adds rest => ?_)
  refine reads.require rest follow (by rw [adds.later.place]; exact deep) fun after adds' rest => ?_
  exact reaches_pure (reached after (adds.trans adds') rest)

theorem gives_conditions (conditions : AreConditions nested levels shapes)
    (rest : stage.rest = Shape.leavesAll (withWords shapes) ++ left) (ends : EndsClause left)
    (deep : stage.place.depth + levels ≤ Builder.maxDepth) :
    Gives (repeatWhile (nextCondition nested)) stage () (withWords shapes) := by
  rw [repeatWhile, ← bind_pure (loop _ _)]
  induction shapes generalizing stage with
  | nil =>
      have other : (nextKind left == some (.reserved .ifWord)) = false := by
        rcases ends with next | ⟨delimiter, next⟩ <;> rw [next] <;> rfl
      refine reaches_loop (Reaches.bind (Reaches.bind (reaches_isAt rest other ?_)))
      exact reaches_pure (reaches_pure (reaches_pure ⟨rfl, .refl stage⟩))
  | cons shape shapes ih =>
      simp only [withWords, List.flatMap_cons, Shape.leavesAll_cons, Shape.leaves_ofKind,
        List.append_assoc, List.cons_append, List.nil_append] at rest
      have step {follows : List Piece → Prop}
          (reads : Reads (condition nested) levels shape follows)
          (follow : follows (Shape.leavesAll (withWords shapes) ++ left))
          (others : AreConditions nested levels shapes) :
          Reaches (loop (fun _ => do pure (← nextCondition nested, ())) () >>= pure) stage
            fun given after => given = () ∧ Adds stage (withWords (shape :: shapes)) after := by
        refine reaches_loop (Reaches.bind ?_)
        refine reaches_nextCondition reads rest follow deep fun read adds rest => reaches_pure ?_
        have more := ih others rest (by rw [adds.later.place]; exact deep)
        exact more.mono fun _ after holds => ⟨rfl, adds.trans holds.2⟩
      cases shapes with
      | nil => exact step conditions ends.looser trivial
      | cons next shapes => exact step conditions.1 (Nat.lt_succ_self 1) conditions.2

/-! ## Clauses -/

/-- The parts of a clause are read. -/
structure IsClause (nested : Nested) (levels : Nat) (target range : Shape) (conditions : List Shape) :
    Prop where
  target : ∀ ⦃lexed : Lexed⦄ (stage : Stage lexed) (left : List Piece),
    stage.rest = target.leaves ++ left → EndsItems 6 left →
    stage.place.depth + levels ≤ Builder.maxDepth → Gives (targets nested) stage () [target]
  range : Reads (tupleOf nested.rangeItem) levels range (EndsItems 2)
  conditions : AreConditions nested levels conditions

/-- The shapes of a clause. -/
def clauseShapes (target range : Shape) (conditions : List Shape) : List Shape :=
  [.ofKind (.reserved .forWord), target, .ofKind (.reserved .inWord), range] ++ withWords conditions

variable {target range : Shape} {conditions : List Shape}

theorem endsItems_in (left : List Piece) : EndsItems 6 (spelled (.reserved .inWord) :: left) :=
  ⟨Nat.lt_succ_self 5, nofun, fun kind same => by cases same; exact ⟨rfl, nofun⟩⟩

/-- What follows the range of a clause ends it. -/
theorem endsItems_clause (ends : EndsClause left) (conditions : List Shape) :
    EndsItems 2 (Shape.leavesAll (withWords conditions) ++ left) := by
  cases conditions with
  | nil =>
      refine ⟨ends.looser.mono (Nat.le_succ 1), ?_, fun kind same => ?_⟩
      · rcases ends with next | ⟨delimiter, next⟩ <;> exact fun same => nomatch next.symm.trans same
      · rcases ends with next | ⟨delimiter, next⟩ <;> cases next.symm.trans same <;>
          exact ⟨rfl, nofun⟩
  | cons condition conditions =>
      exact ⟨Nat.lt_succ_self 1, nofun, fun kind same => by cases same; exact ⟨rfl, nofun⟩⟩

theorem gives_clause (isClause : IsClause nested levels target range conditions)
    (noGenerator : kind ≠ .generatorExpression)
    (rest : stage.rest = Shape.leavesAll (clauseShapes target range conditions) ++ left)
    (ends : EndsClause left) (deep : stage.place.depth + levels ≤ Builder.maxDepth) :
    Gives (clause nested kind) stage () (clauseShapes target range conditions) := by
  simp only [clauseShapes, Shape.leavesAll_cons, Shape.leaves_ofKind, List.append_assoc,
    List.cons_append, List.nil_append] at rest
  refine Reaches.bind (reaches_advance rest fun word adds rest => ?_)
  refine (isClause.target word _ rest (endsItems_in _)
    (by rw [adds.later.place]; exact deep)).bindShape rest fun assigned adds' rest => ?_
  have adds := adds.trans adds'
  refine Reaches.bind (reaches_expect rest rfl fun within adds' rest => ?_)
  have adds := adds.trans adds'
  rw [if_neg noGenerator]
  refine isClause.range.require rest (endsItems_clause ends conditions)
    (by rw [adds.later.place]; exact deep) fun ranged adds' rest => ?_
  have adds := adds.trans adds'
  have gives := gives_conditions isClause.conditions rest ends (by rw [adds.later.place]; exact deep)
  exact gives.mono fun _ after holds => ⟨rfl, adds.trans holds.2⟩

/-- The clauses of a comprehension, one after the other. -/
theorem gives_clauses {first : List Shape} {others : List (List Shape)}
    (clauses : ∀ shapes ∈ first :: others, ∃ target range conditions,
      IsClause nested levels target range conditions ∧ shapes = clauseShapes target range conditions)
    (noGenerator : kind ≠ .generatorExpression)
    (rest : stage.rest = Shape.leavesAll (first ++ others.flatten) ++ left) {delimiter : Delimiter}
    (ends : nextKind left = some (.closing delimiter))
    (deep : stage.place.depth + levels ≤ Builder.maxDepth) :
    Gives (repeatWhile do clause nested kind; isAtWord .forWord) stage () (first ++ others.flatten) := by
  rw [repeatWhile, ← bind_pure (loop _ _)]
  induction others generalizing stage first with
  | nil =>
      obtain ⟨target, range, conditions, isClause, rfl⟩ := clauses first List.mem_cons_self
      rw [List.flatten_nil, List.append_nil] at rest ⊢
      refine reaches_loop (Reaches.bind (Reaches.bind ?_))
      refine (gives_clause isClause noGenerator rest (.inr ⟨delimiter, ends⟩) deep).mono ?_
      intro _ after holds
      have rest := holds.2.left rest
      refine reaches_isAt rest (by rw [ends]) (reaches_pure ?_)
      exact reaches_pure ⟨rfl, holds.2⟩
  | cons next others ih =>
      obtain ⟨target, range, conditions, isClause, rfl⟩ := clauses first List.mem_cons_self
      obtain ⟨target', range', conditions', isClause', same⟩ := clauses next (by simp)
      rw [Shape.leavesAll_append, List.append_assoc] at rest
      have word : nextKind (Shape.leavesAll (next :: others).flatten ++ left) =
          some (.reserved .forWord) := by
        rw [same]
        rfl
      refine reaches_loop (Reaches.bind (Reaches.bind ?_))
      refine (gives_clause isClause noGenerator rest (.inl word) deep).mono ?_
      intro _ middle holds
      have rest := holds.2.left rest
      refine reaches_isAt rest (by rw [word]) (reaches_pure ?_)
      have more := ih (fun shapes mem => clauses shapes (List.mem_cons_of_mem _ mem)) rest
        (by rw [holds.2.later.place]; exact deep)
      exact more.mono fun _ after holds' => ⟨rfl, holds.2.trans holds'.2⟩

/-- A comprehension from its first clause on. -/
theorem reaches_comprehension {first : List Shape} {others : List (List Shape)}
    {delimiter : Delimiter} {post : Unit → Stage lexed → Prop}
    (clauses : ∀ shapes ∈ first :: others, ∃ target range conditions,
      IsClause nested levels target range conditions ∧ shapes = clauseShapes target range conditions)
    (noGenerator : kind ≠ .generatorExpression) (inside : Inside start marker made stage)
    (rest : stage.rest = Shape.leavesAll (first ++ others.flatten) ++
      spelled (.closing delimiter) :: left)
    (deep : stage.place.depth + levels ≤ Builder.maxDepth)
    (reached : ∀ after, Adds start [.node kind none
      (made ++ (first ++ others.flatten) ++ [.ofKind (.closing delimiter)])] after → post () after) :
    Reaches (comprehension nested marker (some (.closing delimiter)) kind) stage post := by
  refine (gives_clauses clauses noGenerator rest rfl deep).bind rest fun read adds rest => ?_
  have inside := inside.adds adds
  refine Reaches.bind (reaches_matches rest rfl fun closed adds _ => ?_)
  exact reaches_done (inside.adds adds) fun after adds _ => reached after adds

end Grammar
end StarlarkSyntax
