import StarlarkSyntax.Proofs.Print.Ahead
/-!
# Reading operations

The rules for the levels of operators. On a level of binary operators the operands are gathered in a
loop around the first of them: `Heads` says that this loop is reached with some shape as what there is
so far. A level takes whatever a tighter level takes (`takes_of_le`).
-/

set_option autoImplicit false

namespace StarlarkSyntax

open Layout (Piece)
open Stage (Inside Adds)

/-! ## The rule of a level -/

section

open Grammar

/-- The rule for the operands of a level. -/
def Tier.rule (nested : Nested) (target : Bool) : Tier → ParseM Bool
  | .ladder .disjunction => operation nested target
  | .ladder .conjunction => conjunction nested target
  | .negation => Grammar.negation nested target
  | .ladder .comparison => comparison nested target
  | .ladder .bitOr => bitOr nested target
  | .ladder .bitXor => bitXor nested target
  | .ladder .bitAnd => bitAnd nested target
  | .ladder .shift => Grammar.shift nested target
  | .ladder .additive => additive nested target
  | .ladder .multiplicative => multiplicative nested target
  | .sign => unary nested target
  | .power => Grammar.power nested target
  | .primary => member nested target

/-- The rule for the first operand of an operator. Before a comparison a star may stand. -/
def Precedence.leftRule (nested : Nested) (target : Bool) : Precedence → ParseM Bool
  | .comparison => starExpression nested target
  | level => (Tier.ladder level).tighter.rule nested target

theorem Tier.rule_ladder (nested : Nested) (target : Bool) (level : Precedence) :
    (Tier.ladder level).rule nested target =
      leftAssociative level (level.leftRule nested target)
        ((Tier.ladder level).tighter.rule nested target) := by
  cases level <;> rfl

end

namespace Grammar

variable {nested : Nested} {target : Bool} {levels : Nat} {shape : Shape} {holds : Place → Prop}

/-! ## Binary operators -/

/-- The operators of a level and their right operands, when the first operand has been read. -/
def operands (level : Precedence) (right : ParseM Bool) (marker : Marker) : ParseM Bool := do
  let marker ← loop (fun marker => do
    match ← look fun builder => level.operatorLength? (builder.nth? 0) (builder.nth? 1) with
    | none => pure (false, marker)
    | some length =>
      advance
      if length = 2 then advance
      require expectedExpression right
      pure (true, ← wrap marker .binaryExpression)) marker
  drop marker
  pure true

theorem leftAssociative_eq (level : Precedence) (left right : ParseM Bool) :
    leftAssociative level left right = (do
      let marker ← mark
      if !(← left) then
        drop marker
        pure false
      else operands level right marker) := rfl

/-- The rule gets to the operators with a shape as the first operand. -/
def Heads (level : Precedence) (left right : ParseM Bool) (levels : Nat) (shape : Shape) : Prop :=
  ∀ ⦃lexed : Lexed⦄ (stage : Stage lexed) (more : List Piece)
    (post : Bool → Stage lexed → Prop), stage.rest = shape.leaves ++ more →
    Looser ((Tier.ladder level).rank + 1) more →
    stage.place.depth + levels ≤ Builder.maxDepth →
    (∀ marker after, Inside stage marker [shape] after → after.rest = more →
      Reaches (operands level right marker) after post) →
    Reaches (leftAssociative level left right) stage post

variable {level : Precedence} {left right : ParseM Bool}

theorem length_eq {lexed : Lexed} {stage : Stage lexed} {left : List Piece}
    (rest : stage.rest = left) (level : Precedence) :
    level.operatorLength? (stage.parser.builder.nth? 0) (stage.parser.builder.nth? 1) =
      level.operatorLength? (nextKind left) (secondKind left) := by
  rw [nth?_eq, nth?_eq, rest]
  cases left with
  | nil => rfl
  | cons piece left => cases left <;> rfl

/-- The operators end where none of the level comes. -/
theorem gives_operands {lexed : Lexed} {stage after : Stage lexed} {marker : Marker} {more : List Piece}
    (inside : Inside stage marker [shape] after) (rest : after.rest = more)
    (looser : Looser (Tier.ladder level).rank more) :
    Reaches (operands level right marker) after fun found last =>
      found = true ∧ Adds stage [shape] last := by
  have ends : level.operatorLength? (after.parser.builder.nth? 0) (after.parser.builder.nth? 1) =
      none := (length_eq rest level).trans (operatorLength?_eq_none looser)
  refine reaches_loop (Reaches.bind (reaches_look ?_))
  rw [ends]
  refine reaches_pure ?_
  exact Reaches.bind (reaches_drop inside fun _ adds _ => reaches_pure ⟨rfl, adds⟩)

/-- An operand that no operator follows. -/
theorem ReadsWhere.leftAssociative
    (reads : ReadsWhere holds left shape (Looser ((Tier.ladder level).rank + 1))) :
    ReadsWhere holds (leftAssociative level left right) shape (Looser (Tier.ladder level).rank) := by
  intro lexed stage more rest looser here
  rw [leftAssociative_eq]
  refine Reaches.bind (reaches_mark fun marker marked inside same => ?_)
  refine reads.bind (same.trans rest) (looser.mono (Nat.le_succ _))
    (by rw [inside.later.place]; exact here) fun after adds rest => ?_
  exact gives_operands (inside.adds adds) rest looser

theorem Reads.heads (reads : Reads left levels shape (Looser ((Tier.ladder level).rank + 1))) :
    Heads level left right levels shape := by
  intro lexed stage more post rest looser deep reached
  rw [leftAssociative_eq]
  refine Reaches.bind (reaches_mark fun marker marked inside same => ?_)
  have place := inside.later.place
  refine reads.bind (same.trans rest) looser (by rw [place]; exact deep) fun after adds rest => ?_
  exact reached marker after (inside.adds adds) rest

theorem Heads.reads (heads : Heads level left right levels shape) :
    Reads (leftAssociative level left right) levels shape (Looser (Tier.ladder level).rank) :=
  fun _ stage more rest looser deep =>
    heads stage more _ rest (looser.mono (Nat.le_succ _)) deep fun _ _ inside rest =>
      gives_operands inside rest looser

/-- One more operator and its right operand make what there is so far the left operand. -/
theorem Heads.operator {levels' : Nat} {shape' : Shape} {operator : Binary}
    (heads : Heads operator.level left right levels shape)
    (reads : Reads right levels' shape' (Looser ((Tier.ladder operator.level).rank + 1)))
    (starts : Starts ((Tier.ladder operator.level).rank + 1) shape'.leaves) :
    Heads operator.level left right (max levels levels')
      (.node .binaryExpression none (shape :: operator.kinds.map .ofKind ++ [shape'])) := by
  intro lexed stage more post rest looser deep reached
  have tokens : Shape.leavesAll (operator.kinds.map .ofKind) = operator.kinds.map spelled := by
    induction operator.kinds with
    | nil => rfl
    | cons kind kinds ih => rw [List.map_cons, Shape.leavesAll_cons, ih]; rfl
  simp only [Shape.leaves_node, List.cons_append, Shape.leavesAll_cons, Shape.leavesAll_append,
    Shape.leavesAll_nil, tokens, List.append_nil, List.append_assoc] at rest
  refine heads stage _ _ rest (operator.looser _) (by omega) fun marker middle inside rest => ?_
  have place := inside.later.place
  have found : operator.level.operatorLength? (middle.parser.builder.nth? 0)
      (middle.parser.builder.nth? 1) = some operator.kinds.length := by
    have next : operator = .isSame →
        nextKind (shape'.leaves ++ more) ≠ some (.reserved .notWord) := by
      rintro rfl
      exact beq_eq_false_iff_ne.1 (starts.ne (by decide) more)
    rw [length_eq rest, ← operator.operatorLength?_eq next]
    rcases operator.kinds_cases with ⟨kind, kinds⟩ | ⟨kind, kind', kinds⟩ <;> rw [kinds] <;> rfl
  refine reaches_loop (Reaches.bind (reaches_look ?_))
  rw [found]
  -- The right operand is read in the same way after one token or two.
  have last {before : Stage lexed}
      (inside : Inside stage marker (shape :: operator.kinds.map .ofKind) before)
      (rest : before.rest = shape'.leaves ++ more) :
      Reaches (do
        require expectedExpression right
        pure (true, ← wrap marker .binaryExpression)) before fun answer middle =>
          Reaches (if answer.1 then operands operator.level right answer.2 else do
            drop answer.2
            pure true) middle post := by
    have deep' : before.place.depth + levels' ≤ Builder.maxDepth := by
      rw [inside.later.place]
      omega
    refine reads.require rest looser deep' fun after adds rest => ?_
    refine Reaches.bind (reaches_wrap (inside.adds adds) fun wrapper wrapped inside same => ?_)
    exact reaches_pure (reached wrapper wrapped inside (same.trans rest))
  rcases operator.kinds_cases with ⟨kind, kinds⟩ | ⟨kind, kind', kinds⟩ <;> rw [kinds] at rest ⊢
  · refine Reaches.bind (reaches_advance rest fun first adds rest => ?_)
    exact last (kinds ▸ inside.adds adds) rest
  · refine Reaches.bind (reaches_advance rest fun first adds rest => ?_)
    refine Reaches.bind (reaches_advance rest fun second adds' rest => ?_)
    exact last (kinds ▸ (inside.adds adds).adds adds') rest

/-! ## The other levels -/

/-- A sign or a word before what it belongs to. -/
theorem reads_prefixed {operand : ParseM Bool} {rank : Nat} {kind : Kind}
    (reads : Reads operand levels shape (Looser rank)) :
    Reads (prefixed operand) levels (.node .prefixExpression none [.ofKind kind, shape])
      (Looser rank) := by
  intro lexed stage left rest looser deep
  simp only [Shape.leaves_node, Shape.leavesAll_cons, Shape.leavesAll_nil, List.append_nil,
    Shape.leaves_ofKind, List.cons_append, List.nil_append] at rest
  refine Reaches.bind (reaches_mark fun marker _ inside same => ?_)
  refine Reaches.bind (reaches_advance (same.trans rest) fun _ adds rest => ?_)
  have inside := inside.adds adds
  refine reads.require rest looser (by rw [inside.later.place]; exact deep) fun _ adds rest => ?_
  exact Reaches.bind (reaches_done (inside.adds adds) fun _ adds _ => reaches_pure ⟨rfl, adds⟩)

/-- A chain that no power follows. -/
theorem ReadsWhere.power (reads : ReadsWhere holds (Grammar.member nested target) shape (Looser 14)) :
    ReadsWhere holds (Grammar.power nested target) shape (Looser 13) := by
  intro lexed stage left rest looser here
  refine Reaches.bind (reaches_mark fun marker _ inside same => ?_)
  refine reads.bind (same.trans rest) (looser.mono (by decide))
    (by rw [inside.later.place]; exact here) fun _ adds rest => ?_
  have other : (nextKind left == some (.operator .starStar)) = false := by
    rw [beq_eq_false_iff_ne]
    intro next
    rw [Looser, next] at looser
    exact Nat.lt_irrefl _ looser
  refine Reaches.bind (reaches_matches_not rest other ?_)
  exact Reaches.bind (reaches_drop (inside.adds adds) fun _ adds _ => reaches_pure ⟨rfl, adds⟩)

/-- A chain and its exponent. -/
theorem reads_power {levels' : Nat} {shape' : Shape}
    (reads : Reads (member nested target) levels shape (Looser 14))
    (reads' : Reads (nested (.exponent target)) levels' shape' (Looser 12)) :
    Reads (Grammar.power nested target) (max levels levels')
      (.node .binaryExpression none [shape, .ofKind (.operator .starStar), shape']) (Looser 12) := by
  intro lexed stage left rest looser deep
  simp only [Shape.leaves_node, Shape.leavesAll_cons, Shape.leavesAll_nil, List.append_nil,
    Shape.leaves_ofKind, List.cons_append, List.nil_append, List.append_assoc] at rest
  refine Reaches.bind (reaches_mark fun marker _ inside same => ?_)
  refine reads.bind (same.trans rest) (Nat.lt_succ_self 13)
    (by rw [inside.later.place]; omega) fun _ adds rest => ?_
  have inside := inside.adds adds
  refine Reaches.bind (reaches_matches rest rfl fun _ adds rest => ?_)
  have inside := inside.adds adds
  refine reads'.require rest looser (by rw [inside.later.place]; omega) fun _ adds rest => ?_
  exact Reaches.bind (reaches_done (inside.adds adds) fun _ adds _ => reaches_pure ⟨rfl, adds⟩)

theorem ReadsWhere.unary (reads : ReadsWhere holds (Grammar.power nested target) shape (Looser 12))
    (starts : Starts 13 shape.leaves) :
    ReadsWhere holds (Grammar.unary nested target) shape (Looser 12) :=
  fun _ stage left rest looser here =>
    Reaches.bind (reaches_isAtAny rest (starts.any (by decide) left)
      (reads stage left rest looser here))

theorem reads_unary {sign : Sign} (reads : Reads (nested (.signed target)) levels
      (.node .prefixExpression none [.ofKind sign.kind, shape]) (Looser 12)) :
    Reads (unary nested target) levels
      (.node .prefixExpression none [.ofKind sign.kind, shape]) (Looser 12) :=
  fun _ stage left rest looser deep =>
    Reaches.bind (reaches_isAtAny rest (show _ = true by cases sign <;> rfl)
      (reads stage left rest looser deep))

/-- No star comes before the operand. -/
theorem ReadsWhere.starred {operand : ParseM Bool} {symbol : Operator} {kind : NodeKind} {rank : Nat}
    (reads : ReadsWhere holds operand shape (Looser rank)) (starts : Starts 1 shape.leaves)
    (other : beginning (.operator symbol) = 0) :
    ReadsWhere holds (Grammar.starred symbol kind operand) shape (Looser rank) :=
  fun _ stage left rest looser here =>
    Reaches.bind (reaches_isAt rest (starts.ne (by omega) left)
      (reads stage left rest looser here))

theorem Reads.starred {operand : ParseM Bool} {symbol : Operator} {kind : NodeKind} {rank : Nat}
    (reads : Reads operand levels shape (Looser rank)) (starts : Starts 1 shape.leaves)
    (other : beginning (.operator symbol) = 0) :
    Reads (starred symbol kind operand) levels shape (Looser rank) :=
  reads_iff.2 ((reads_iff.1 reads).starred starts other)

theorem ReadsWhere.negation (reads : ReadsWhere holds (comparison nested target) shape (Looser 5))
    (starts : Starts 5 shape.leaves) :
    ReadsWhere holds (Grammar.negation nested target) shape (Looser 4) :=
  fun _ stage left rest looser here =>
    Reaches.bind (reaches_isAt rest (starts.ne (by decide) left)
      (reads stage left rest (looser.mono (Nat.le_succ _)) here))

theorem reads_negation {shapes : List Shape} (reads : Reads (nested (.negation target)) levels
      (.node .prefixExpression none (.ofKind (.reserved .notWord) :: shapes)) (Looser 4)) :
    Reads (negation nested target) levels
      (.node .prefixExpression none (.ofKind (.reserved .notWord) :: shapes)) (Looser 4) :=
  fun _ stage left rest looser deep =>
    Reaches.bind (reaches_isAt rest rfl (reads stage left rest looser deep))

/-! ## All levels -/

/-- The first operand of an operator is read as an operand of the next level. -/
theorem reads_leftRule {level : Precedence}
    (reads : Reads ((Tier.ladder level).tighter.rule nested target) levels shape
      (Looser (Tier.ladder level).tighter.rank)) (starts : Starts 1 shape.leaves) :
    Reads (level.leftRule nested target) levels shape
      (Looser ((Tier.ladder level).rank + 1)) := by
  rw [← Tier.rank_tighter (.ladder level) (by simp)]
  cases level with
  | comparison => exact reads.starred starts rfl
  | _ => exact reads

/-- The rule of a level takes the shape for an operand. On the level of a binary operator that leads
to more operators of the level; and what follows a power binds less than a sign, since the exponent may
have one. -/
def Takes (nested : Nested) (target : Bool) (levels : Nat) (shape : Shape) : Tier → Prop
  | .ladder level =>
    Heads level (level.leftRule nested target) ((Tier.ladder level).tighter.rule nested target) levels
      shape
  | .power => Reads (Grammar.power nested target) levels shape (Looser 12)
  | level => Reads (level.rule nested target) levels shape (Looser level.rank)

theorem Takes.reads {level : Tier} (takes : Takes nested target levels shape level)
    (noPower : level ≠ .power) : Reads (level.rule nested target) levels shape (Looser level.rank) := by
  cases level with
  | ladder level =>
      rw [Tier.rule_ladder]
      exact Heads.reads takes
  | power => contradiction
  | _ => exact takes

/-- A level takes what the next level takes. -/
theorem takes_of_tighter {level : Tier} (below : level ≠ .primary)
    (takes : Takes nested target levels shape level.tighter)
    (starts : Starts level.tighter.rank shape.leaves) : Takes nested target levels shape level := by
  cases level with
  | ladder level =>
      have pos : 1 ≤ (Tier.ladder level).tighter.rank := by cases level <;> decide
      have noPower : (Tier.ladder level).tighter ≠ .power := by cases level <;> nofun
      exact (reads_leftRule (takes.reads noPower) (starts.mono pos)).heads
  | negation => exact reads_iff.2 ((reads_iff.1 (takes.reads nofun)).negation starts)
  | sign => exact reads_iff.2 ((reads_iff.1 takes).unary starts)
  | power =>
      exact reads_iff.2 ((reads_iff.1 takes).power.weaken fun _ looser => looser.mono (by decide))
  | primary => contradiction

/-- A level takes what a tighter level takes. -/
theorem takes_of_le {level level' : Tier} (le : level.rank ≤ level'.rank)
    (takes : Takes nested target levels shape level') (starts : Starts level'.rank shape.leaves) :
    Takes nested target levels shape level := by
  induction distance : level'.rank - level.rank generalizing level with
  | zero =>
      have same : level = level' := Tier.rank_injective (by omega)
      exact same ▸ takes
  | succ distance ih =>
      have below : level ≠ .primary := by
        rintro rfl
        have := level'.rank_le
        simp only [Tier.rank] at distance this
        omega
      have next := Tier.rank_tighter level below
      exact takes_of_tighter below (ih (by omega) (by omega)) (starts.mono (by omega))

end Grammar
end StarlarkSyntax
