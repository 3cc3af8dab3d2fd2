import StarlarkSyntax.Proofs.Print.Separated
/-!
# Reading arguments, parameters and lambdas

An argument that begins with a name is tried as a named argument first. It is none if no `=` follows
the name, and then the name is read again as part of an expression.
-/

set_option autoImplicit false

namespace StarlarkSyntax

open Layout (Piece)
open Stage (Inside Adds)

namespace Grammar

variable {lexed : Lexed} {nested : Nested} {levels : Nat} {stage start : Stage lexed}
  {left : List Piece} {shapes made : List Shape} {shape : Shape} {marker : Marker}

/-! ## Arguments -/

/-- No value for a name comes. -/
theorem gives_namedArgument_none (rest : stage.rest = left)
    (other : nextKind left = some .identifier → secondKind left ≠ some .equals) :
    Gives (namedArgument nested) stage false [] := by
  by_cases name : nextKind left = some .identifier
  · cases left with
    | nil => cases name
    | cons piece left =>
        refine Reaches.bind (reaches_isAt rest (by rw [beq_iff_eq]; exact name) ?_)
        refine Reaches.bind (reaches_mark fun argument marked inside same => ?_)
        refine Reaches.bind (reaches_advance (same.trans rest) fun named adds rest => ?_)
        refine Reaches.bind (reaches_matches_not rest (by
          rw [beq_eq_false_iff_ne]
          exact other name) ?_)
        refine Reaches.bind (reaches_rollback (inside.adds adds) fun _ adds _ => ?_)
        exact reaches_pure ⟨rfl, adds⟩
  · refine Reaches.bind (reaches_isAt rest (by rw [beq_eq_false_iff_ne]; exact name) ?_)
    exact reaches_pure ⟨rfl, .refl stage⟩

theorem isArgument_positional (item : IsItem (test nested false) 1 levels shape) :
    IsArgument nested levels (.node .argumentExpression none [shape]) := by
  have leaves : (Shape.node .argumentExpression none [shape]).leaves = shape.leaves := by simp
  refine ⟨fun first lexed stage left rest follow deep => ?_, fun left => ?_⟩
  · rw [leaves] at rest
    have looser : Looser 1 left := by
      rcases follow with next | next <;> rw [Looser, next] <;> exact Nat.one_pos
    have noFor : (nextKind left == some (.reserved .forWord)) = false := by
      rcases follow with next | next <;> rw [next] <;> rfl
    have noValue : nextKind left ≠ some .equals := by
      rcases follow with next | next <;> rw [next] <;> nofun
    refine Reaches.bind (reaches_isAtAny rest (item.starts.any (by decide) left) ?_)
    refine (gives_namedArgument_none rest (item.starts.append noValue).second).andThen
      fun tried adds => ?_
    have rest := adds.left rest
    refine Reaches.bind (reaches_mark fun argument opened inside same => ?_)
    refine Reaches.bind (reaches_mark fun generator marked inside' same' => ?_)
    have place := inside'.later.place.trans (inside.later.place.trans adds.later.place)
    refine item.reads.bind (same'.trans (same.trans rest)) looser (by rw [place]; exact deep)
      fun read adds' rest => ?_
    refine Reaches.bind (reaches_isAt rest noFor ?_)
    rw [Bool.and_false]
    refine Reaches.bind (reaches_drop (inside'.adds adds') fun dropped adds' _ => ?_)
    refine Reaches.bind (reaches_done (inside.adds adds') fun after adds' _ => ?_)
    exact reaches_pure ⟨rfl, adds.trans adds'⟩
  · rw [leaves]
    exact item.starts.ne (by decide) left

theorem isArgument_named (item : IsItem (test nested false) 1 levels shape) (name : Name) :
    IsArgument nested levels
      (.node .namedArgumentExpression none [.ofName name, .ofKind .equals, shape]) := by
  refine ⟨fun first lexed stage left rest follow deep => ?_, fun left => rfl⟩
  simp only [Shape.leaves_node, Shape.leavesAll_cons, Shape.leavesAll_nil, List.append_nil,
    Shape.leaves_ofKind, Shape.leaves_ofName, List.cons_append, List.nil_append] at rest
  have looser : Looser 1 left := by
    rcases follow with next | next <;> rw [Looser, next] <;> exact Nat.one_pos
  refine Reaches.bind (reaches_isAtAny rest rfl ?_)
  refine Reaches.bind (Reaches.bind (reaches_isAt rest rfl ?_))
  refine Reaches.bind (reaches_mark fun argument marked inside same => ?_)
  refine Reaches.bind (reaches_advance (same.trans rest) fun named adds rest => ?_)
  have inside := inside.adds adds
  refine Reaches.bind (reaches_matches rest rfl fun equals adds rest => ?_)
  have inside := inside.adds adds
  refine item.reads.require rest looser (by rw [inside.later.place]; exact deep)
    fun read adds _ => ?_
  refine Reaches.bind (reaches_done (inside.adds adds) fun after adds _ => ?_)
  exact reaches_pure (reaches_pure ⟨rfl, adds⟩)

theorem isArgument_starred (item : IsItem (test nested false) 1 levels shape) {symbol : Operator}
    (is : symbol = .star ∨ symbol = .starStar) :
    IsArgument nested levels
      (.node .starArgumentExpression none [.ofKind (.operator symbol), shape]) := by
  refine ⟨fun first lexed stage left rest follow deep => ?_, fun left => rfl⟩
  simp only [Shape.leaves_node, Shape.leavesAll_cons, Shape.leavesAll_nil, List.append_nil,
    Shape.leaves_ofKind, List.cons_append, List.nil_append] at rest
  have looser : Looser 1 left := by
    rcases follow with next | next <;> rw [Looser, next] <;> exact Nat.one_pos
  refine Reaches.bind (reaches_isAtAny rest (show _ = true by rcases is with rfl | rfl <;> rfl) ?_)
  refine Reaches.bind (reaches_mark fun argument marked inside same => ?_)
  refine Reaches.bind (reaches_advance (same.trans rest) fun star adds rest => ?_)
  have inside := inside.adds adds
  refine item.reads.require rest looser (by rw [inside.later.place]; exact deep)
    fun read adds _ => ?_
  refine Reaches.bind (reaches_done (inside.adds adds) fun after adds _ => ?_)
  exact reaches_pure ⟨rfl, adds⟩

/-! ## Parameters -/

variable {stop : Kind}

theorem isParameter_keywordVariadic (noName : stop ≠ .operator .starStar) (name : Name) :
    IsParameter nested stop levels
      (.node .keywordVariadicParameter none [.ofKind (.operator .starStar), .ofName name]) := by
  refine ⟨fun lexed stage left rest follow deep => ?_, fun left => ?_, nofun⟩
  · refine Reaches.bind (reaches_mark fun parameter marked inside same => ?_)
    refine Reaches.bind (reaches_matches (same.trans rest) rfl fun stars adds rest => ?_)
    have inside := inside.adds adds
    refine Reaches.bind (reaches_expect rest rfl fun named adds _ => ?_)
    refine Reaches.bind (reaches_done (inside.adds adds) fun after adds _ => ?_)
    exact reaches_pure ⟨rfl, adds⟩
  · rw [beq_eq_false_iff_ne]
    exact fun same => noName (Option.some.inj same).symm

theorem isParameter_variadic (noName : stop ≠ .operator .star) (notIdentifier : stop ≠ .identifier)
    (name? : Option Name) :
    IsParameter nested stop levels (.node .variadicParameter none
      (.ofKind (.operator .star) :: (name?.map Shape.ofName).toList)) := by
  refine ⟨fun lexed stage left rest follow deep => ?_, fun left => ?_, nofun⟩
  · refine Reaches.bind (reaches_mark fun parameter marked inside same => ?_)
    refine Reaches.bind (reaches_matches_not (same.trans rest) rfl ?_)
    refine Reaches.bind (reaches_matches (same.trans rest) rfl fun star adds rest => ?_)
    have inside := inside.adds adds
    cases name? with
    | none =>
        refine Reaches.bind (reaches_matches_not rest ?_ ?_)
        · rw [beq_eq_false_iff_ne]
          rcases follow with next | next
          · exact fun same => nomatch (next.symm.trans same)
          · exact fun same => notIdentifier (Option.some.inj (next.symm.trans same))
        · refine Reaches.bind (reaches_done inside fun after adds _ => ?_)
          exact reaches_pure ⟨rfl, adds⟩
    | some name =>
        refine Reaches.bind (reaches_matches rest rfl fun named adds _ => ?_)
        refine Reaches.bind (reaches_done (inside.adds adds) fun after adds _ => ?_)
        exact reaches_pure ⟨rfl, adds⟩
  · rw [beq_eq_false_iff_ne]
    exact fun same => noName (Option.some.inj same).symm

theorem isParameter_mandatory (notIdentifier : stop ≠ .identifier) (notEquals : stop ≠ .equals)
    (name : Name) :
    IsParameter nested stop levels (.node .mandatoryParameter none [.ofName name]) := by
  refine ⟨fun lexed stage left rest follow deep => ?_, fun left => ?_, nofun⟩
  · refine Reaches.bind (reaches_mark fun parameter marked inside same => ?_)
    refine Reaches.bind (reaches_matches_not (same.trans rest) rfl ?_)
    refine Reaches.bind (reaches_matches_not (same.trans rest) rfl ?_)
    refine Reaches.bind (reaches_matches (same.trans rest) rfl fun named adds rest => ?_)
    refine Reaches.bind (reaches_matches_not rest ?_ ?_)
    · rw [beq_eq_false_iff_ne]
      rcases follow with next | next
      · exact fun same => nomatch (next.symm.trans same)
      · exact fun same => notEquals (Option.some.inj (next.symm.trans same))
    · refine Reaches.bind (reaches_done (inside.adds adds) fun after adds _ => ?_)
      exact reaches_pure ⟨rfl, adds⟩
  · rw [beq_eq_false_iff_ne]
    exact fun same => notIdentifier (Option.some.inj same).symm

theorem isParameter_optional (item : IsItem (test nested false) 1 levels shape)
    (notIdentifier : stop ≠ .identifier)
    (looser : ∀ left, nextKind left = some stop → Looser 1 left) (name : Name) :
    IsParameter nested stop levels
      (.node .optionalParameter none [.ofName name, .ofKind .equals, shape]) := by
  refine ⟨fun lexed stage left rest follow deep => ?_, fun left => ?_, nofun⟩
  · simp only [Shape.leaves_node, Shape.leavesAll_cons, Shape.leavesAll_nil, List.append_nil,
      Shape.leaves_ofKind, Shape.leaves_ofName, List.cons_append, List.nil_append] at rest
    have looser : Looser 1 left := by
      rcases follow with next | next
      · rw [Looser, next]
        exact Nat.one_pos
      · exact looser left next
    refine Reaches.bind (reaches_mark fun parameter marked inside same => ?_)
    refine Reaches.bind (reaches_matches_not (same.trans rest) rfl ?_)
    refine Reaches.bind (reaches_matches_not (same.trans rest) rfl ?_)
    refine Reaches.bind (reaches_matches (same.trans rest) rfl fun named adds rest => ?_)
    have inside := inside.adds adds
    refine Reaches.bind (reaches_matches rest rfl fun equals adds rest => ?_)
    have inside := inside.adds adds
    refine item.reads.require rest looser (by rw [inside.later.place]; exact deep)
      fun read adds _ => ?_
    refine Reaches.bind (reaches_done (inside.adds adds) fun after adds _ => ?_)
    exact reaches_pure ⟨rfl, adds⟩
  · rw [beq_eq_false_iff_ne]
    exact fun same => notIdentifier (Option.some.inj same).symm

/-! ## Lambdas -/

/-- The rest of a lambda after its head. -/
theorem reads_lambda {levels' rank : Nat} {body : ParseM Bool}
    (parameters : ∀ shape ∈ shapes, IsParameter nested .colon levels shape)
    (reads : Reads body levels' shape (Looser rank)) :
    Reads (lambda nested body) (max levels levels')
      (.node .lambdaExpression none [.ofKind (.reserved .lambdaWord),
        .node .parameterList none (Shape.withCommas shapes), .ofKind .colon, shape])
      (Looser rank) := by
  intro lexed stage left rest looser deep
  simp only [Shape.leaves_node, Shape.leavesAll_cons, Shape.leavesAll_nil, List.append_nil,
    Shape.leaves_ofKind, List.append_assoc, List.cons_append, List.nil_append] at rest
  refine Reaches.bind (Reaches.bind (reaches_mark fun expression marked inside same => ?_))
  refine Reaches.bind (reaches_advance (same.trans rest) fun word adds rest => ?_)
  have inside := inside.adds adds
  refine Reaches.bind (Reaches.bind (reaches_mark fun list opened inside' same => ?_))
  have place : opened.place = stage.place := inside'.later.place.trans inside.later.place
  refine (gives_parameters (show Kind.colon ≠ .comma from nofun) parameters (same.trans rest) (by rw [place]; omega)).bind
    (same.trans rest) fun middle adds rest => ?_
  refine reaches_done (inside'.adds adds) fun listed adds same => ?_
  have inside := inside.adds adds
  refine Reaches.bind (reaches_expect (same.trans rest) rfl fun colon adds rest => ?_)
  have inside := inside.adds adds
  refine reaches_pure ?_
  refine reads.require rest looser (by rw [inside.later.place]; omega) fun read adds _ => ?_
  refine Reaches.bind (reaches_done (inside.adds adds) fun after adds _ => ?_)
  exact reaches_pure ⟨rfl, adds⟩

end Grammar
end StarlarkSyntax
