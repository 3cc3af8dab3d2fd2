import StarlarkSyntax.Proofs.Print.Readable
/-!
# Every expression is read

Every expression is read in every position, if the expressions right inside it are
(`Expr.readable`). There is one lemma for each way to build an expression.
-/

set_option autoImplicit false

namespace StarlarkSyntax

open Layout (Piece)
open Grammar

theorem le_most {levels : List Nat} {n : Nat} (mem : n ∈ levels) : n ≤ most levels := by
  induction levels with
  | nil => cases mem
  | cons first levels ih =>
      rw [most, List.foldr_cons]
      rcases List.mem_cons.1 mem with rfl | mem
      · exact Nat.le_max_left _ _
      · exact Nat.le_trans (ih mem) (Nat.le_max_right _ _)

/-- One of several expressions takes no more levels than the deepest of them. -/
theorem Expr.nesting_le_most {elements : List Expr} {element : Expr} (mem : element ∈ elements)
    (position : Position) :
    element.nesting position ≤ most (elements.map fun element => element.nesting position) :=
  le_most (List.mem_map_of_mem mem)

namespace Readable

variable {expr : Expr} {k levels : Nat}

/-- A full expression as one of several items. -/
theorem item (readable : Readable expr) (target : Bool) (le : expr.nesting .test ≤ levels)
    (deep : levels ≤ k) :
    IsItem (test (nestedFor k) target) 1 levels (expr.shape target .test) where
  reads := (show Grammar.Reads _ _ _ _ from
    readable.readIn .test k target (Nat.le_trans le deep)).weaken le fun _ => id
  starts := expr.starts target .test

/-! ## First expressions of chains -/

theorem ofPrimary (rank : expr.rank = Tier.primary.rank)
    (unlinked : expr.isUnlinked = true ∧ expr.isUnsubscripted = true)
    (reads : ∀ k target, expr.depth .alone ≤ k → Grammar.Reads (primary (nestedFor k) target)
      (expr.depth .alone) (expr.inner target .alone) fun _ => True) : Readable expr := by
  refine .ofChain rank fun k le => ?_
  rw [unlinked.1, unlinked.2]
  refine .primary ?_ fun target => reads k target le
  have leaves := expr.leaves_eq true false .alone
  rwa [Expr.shape_of_admits (Position.admits_alone expr),
    Expr.shape_of_admits (Position.admits_alone expr)] at leaves

theorem ofDisplay (rank : expr.rank = Tier.primary.rank)
    (unlinked : expr.isUnlinked = true ∧ expr.isUnsubscripted = true) (delimiter : Delimiter)
    (depth : expr.depth .alone = 1 + levels)
    (makes : ∀ k target, levels ≤ k →
      Makes (display (nestedFor k) delimiter target) levels (expr.inner target .alone))
    (opening : ∀ target, ∃ more,
      (expr.inner target .alone).leaves = spelled (.opening delimiter) :: more) : Readable expr := by
  refine .ofPrimary rank unlinked fun k target le => ?_
  obtain ⟨more, opening⟩ := opening target
  rw [depth, Nat.add_comm] at le ⊢
  refine reads_display (reads_nested (fun k le => ?_) le) opening
  exact (makes k target le).reads

theorem name (name : Name) : Readable (.name name) :=
  .ofPrimary rfl ⟨rfl, rfl⟩ fun k target _ => by
    rw [Expr.depth, Expr.inner]
    exact reads_name name target

theorem literal (literal : Literal) : Readable (.literal literal) :=
  .ofPrimary rfl ⟨rfl, rfl⟩ fun k target _ => by
    rw [Expr.depth, Expr.inner]
    exact reads_literal literal target

/-! ## Displays -/

theorem parenthesized (inner : Readable expr) : Readable (.parenthesized expr) := by
  refine .ofDisplay rfl ⟨rfl, rfl⟩ .parenthesis (by rw [Expr.depth, Position.levels_depth])
    (fun k target le => ?_) fun target => ⟨_, by rw [Expr.inner]; rfl⟩
  rw [Expr.inner, Position.enclose_inner]
  exact makes_parenthesized (inner.readIn .alone k target le) (expr.starts target .alone)

theorem emptyTuple : Readable (.tuple []) := by
  refine .ofDisplay rfl ⟨rfl, rfl⟩ .parenthesis (show _ = 1 + 0 by rw [Expr.depth])
    (fun k target le => ?_) fun target => ⟨_, by rw [Expr.inner]; rfl⟩
  rw [Expr.inner]
  exact makes_emptyTuple

/-- Full expressions as items. -/
theorem items {elements : List Expr} (readable : ∀ element ∈ elements, Readable element)
    (target : Bool) (deep : levels ≤ k)
    (le : most (elements.map fun element => element.nesting .test) ≤ levels) :
    ∀ shape ∈ elements.map fun element => element.shape target .test,
      IsItem (test (nestedFor k) target) 1 levels shape := by
  intro shape mem
  obtain ⟨element, mem', rfl⟩ := List.mem_map.1 mem
  exact (readable element mem').item target (Nat.le_trans (Expr.nesting_le_most mem' .test) le) deep

theorem list {elements : List Expr} (readable : ∀ element ∈ elements, Readable element) :
    Readable (.list elements) := by
  refine .ofDisplay rfl ⟨rfl, rfl⟩ .bracket (by simp only [Expr.depth, Position.levels_depth]; rfl)
    (fun k target le => ?_) fun target => ⟨_, by rw [Expr.inner]; rfl⟩
  simp only [Expr.inner, Position.enclose_inner]
  have items := items readable target le (Nat.le_refl _)
  cases elements with
  | nil => exact makes_emptyList
  | cons first others => exact makes_list items

theorem set {first : Expr} {others : List Expr}
    (readable : ∀ element ∈ first :: others, Readable element) : Readable (.set first others) := by
  refine .ofDisplay rfl ⟨rfl, rfl⟩ .brace (by simp only [Expr.depth, Position.levels_depth]; rfl)
    (fun k target le => ?_) fun target => ⟨_, by rw [Expr.inner]; rfl⟩
  simp only [Expr.inner, Position.enclose_inner]
  exact makes_set (items readable false le (Nat.le_refl _))

/-! ## Dictionaries -/

theorem entry {entry : Entry} (readable : ∀ part ∈ entry.parts, Readable part)
    (le : entry.depth ≤ levels) (deep : levels ≤ k) :
    ∃ key value, IsEntry (nestedFor k) levels key value ∧ entry.shape = entryShape key value := by
  obtain ⟨key, value⟩ := entry
  simp only [Entry.depth, Position.levels_depth] at le
  refine ⟨_, _, ⟨?_, ?_⟩, by simp only [Entry.shape, Position.enclose_inner]; rfl⟩
  · exact (readable key (by simp [Entry.parts])).item false (by omega) deep
  · exact (readable value (by simp [Entry.parts])).item false (by omega) deep

theorem dict {entries : List Entry}
    (readable : ∀ entry ∈ entries, ∀ part ∈ entry.parts, Readable part) :
    Readable (.dict entries) := by
  refine .ofDisplay rfl ⟨rfl, rfl⟩ .brace (by rw [Expr.depth])
    (fun k target le => ?_) fun target => ⟨_, by rw [Expr.inner]; rfl⟩
  rw [Expr.inner]
  have items : ∀ shape ∈ entries.map fun entry => entry.shape, ∃ key value,
      IsEntry (nestedFor k) (most (entries.map fun entry => entry.depth)) key value ∧
        shape = entryShape key value := by
    intro shape mem
    obtain ⟨entry, mem', rfl⟩ := List.mem_map.1 mem
    exact Readable.entry (readable entry mem') (le_most (List.mem_map_of_mem mem')) le
  cases entries with
  | nil => exact makes_emptyDict
  | cons first others => exact makes_dict items

/-! ## Comprehensions -/

theorem conditions {conditions : List Expr} (readable : ∀ part ∈ conditions, Readable part)
    (le : conditionDepth conditions ≤ levels) (deep : levels ≤ k) :
    ∃ shapes, AreConditions (nestedFor k) levels shapes ∧
      conditionShapes conditions = withWords shapes := by
  induction conditions with
  | nil => exact ⟨[], trivial, by rw [conditionShapes]; rfl⟩
  | cons condition more ih =>
      obtain ⟨first, others⟩ := List.forall_mem_cons.1 readable
      cases more with
      | nil =>
          rw [conditionDepth, Position.levels_depth] at le
          refine ⟨[condition.shape false .condition], ?_, ?_⟩
          · exact (first.readIn .condition k false (Nat.le_trans le deep) rfl).weaken le fun _ => id
          · rw [conditionShapes, Position.enclose_inner]
            rfl
      | cons next more =>
          rw [conditionDepth, Position.levels_depth] at le
          obtain ⟨shapes, are, same⟩ := ih others (by omega)
          have le' : condition.nesting (.operand (.ladder .disjunction)) ≤ levels := by omega
          have reads := (first.readIn (.operand (.ladder .disjunction))).rule (by decide) false
            (Nat.le_trans le' deep)
          refine ⟨condition.shape false (.operand (.ladder .disjunction)) :: shapes, ?_, ?_⟩
          · have this := (reads.condition (condition.starts false _)).weaken le' fun _ => id
            cases shapes with
            | nil =>
                rw [conditionShapes.eq_def] at same
                cases more <;> cases same
            | cons => exact ⟨this, are⟩
          · rw [conditionShapes, Position.enclose_inner, same]
            rfl

theorem clause {clause : Clause} (readable : ∀ part ∈ clause.parts, Readable part)
    (le : clause.depth ≤ levels) (deep : levels ≤ k) : ∃ target range conditions,
      IsClause (nestedFor k) levels target range conditions ∧
        clause.shapes = clauseShapes target range conditions := by
  obtain ⟨targets, range, conditions⟩ := clause
  simp only [Clause.depth, Position.levels_depth, most, List.foldr_cons, List.foldr_nil,
    Nat.max_le, Nat.zero_le, and_true] at le
  obtain ⟨targetsLe, rangeLe, conditionsLe⟩ := le
  have isTargets := readable targets (by simp [Clause.parts])
  have isRange := readable range (by simp [Clause.parts])
  obtain ⟨shapes, are, same⟩ := Readable.conditions
    (fun part mem => readable part (by simp [Clause.parts, mem])) conditionsLe deep
  refine ⟨_, _, shapes, ⟨?_, ?_, are⟩, by
    rw [Clause.shapes, Position.enclose_inner, Position.enclose_inner, same]; rfl⟩
  · intro lexed stage left rest ends fits
    exact isTargets.readIn .targets k true (Nat.le_trans targetsLe deep) rfl stage left rest ends
      (by omega)
  · exact (isRange.readIn .range k false (Nat.le_trans rangeLe deep) rfl).weaken rangeLe fun _ => id

/-- The clauses of a comprehension. -/
theorem clauses {first : Clause} {others : List Clause}
    (readable : ∀ clause ∈ first :: others, ∀ part ∈ clause.parts, Readable part)
    (le : ∀ clause ∈ first :: others, clause.depth ≤ levels) (deep : levels ≤ k) :
    ∀ shapes ∈ first.shapes :: others.map Clause.shapes, ∃ target range conditions,
      IsClause (nestedFor k) levels target range conditions ∧
        shapes = clauseShapes target range conditions := by
  intro shapes mem
  rw [← List.map_cons] at mem
  obtain ⟨clause, mem', rfl⟩ := List.mem_map.1 mem
  exact Readable.clause (readable clause mem') (le clause mem') deep

theorem listComprehension {element : Expr} {first : Clause} {others : List Clause}
    (readable : Readable element)
    (readable' : ∀ clause ∈ first :: others, ∀ part ∈ clause.parts, Readable part) :
    Readable (.listComprehension element first others) := by
  refine .ofDisplay rfl ⟨rfl, rfl⟩ .bracket (by rw [Expr.depth])
    (fun k target le => ?_) fun target => ⟨_, by rw [Expr.inner]; rfl⟩
  rw [Expr.inner]
  refine makes_listComprehension (readable.item target (le_most (by simp [Position.levels_depth])) le)
    (clauses readable' (fun clause mem => le_most ?_) le)
  rcases List.mem_cons.1 mem with rfl | mem
  · simp
  · exact List.mem_cons_of_mem _ (List.mem_cons_of_mem _ (List.mem_map_of_mem mem))

theorem dictComprehension {entry : Entry} {first : Clause} {others : List Clause}
    (readable : ∀ part ∈ entry.parts, Readable part)
    (readable' : ∀ clause ∈ first :: others, ∀ part ∈ clause.parts, Readable part) :
    Readable (.dictComprehension entry first others) := by
  refine .ofDisplay rfl ⟨rfl, rfl⟩ .brace (by rw [Expr.depth])
    (fun k target le => ?_) fun target => ⟨_, by rw [Expr.inner]; rfl⟩
  obtain ⟨key, value, isEntry, same⟩ := Readable.entry readable (le_most (by simp)) le
  rw [Expr.inner, same]
  refine makes_dictComprehension isEntry (clauses readable' (fun clause mem => le_most ?_) le)
  rcases List.mem_cons.1 mem with rfl | mem
  · simp
  · exact List.mem_cons_of_mem _ (List.mem_cons_of_mem _ (List.mem_map_of_mem mem))

/-! ## Chains -/

theorem dotted {object : Expr} (readable : Readable object) (name : Name) :
    Readable (.dotted object name) := by
  refine .ofChain rfl fun k le => ?_
  simp only [Expr.depth, Expr.inner, Position.levels_depth, Position.enclose_inner] at le ⊢
  exact (readable.linkable k le).dotted name

theorem argument {argument : Argument} (readable : ∀ part ∈ argument.parts, Readable part)
    (le : argument.depth ≤ levels) (deep : levels ≤ k) :
    IsArgument (nestedFor k) levels argument.shape := by
  cases argument with
  | positional value =>
      simp only [Argument.depth, Argument.shape, Position.levels_depth, Position.enclose_inner] at le ⊢
      exact isArgument_positional ((readable value (by simp [Argument.parts])).item false le deep)
  | named name value =>
      simp only [Argument.depth, Argument.shape, Position.levels_depth, Position.enclose_inner] at le ⊢
      exact isArgument_named ((readable value (by simp [Argument.parts])).item false le deep) name
  | star value =>
      simp only [Argument.depth, Argument.shape, Position.levels_depth, Position.enclose_inner] at le ⊢
      exact isArgument_starred ((readable value (by simp [Argument.parts])).item false le deep)
        (.inl rfl)
  | doubleStar value =>
      simp only [Argument.depth, Argument.shape, Position.levels_depth, Position.enclose_inner] at le ⊢
      exact isArgument_starred ((readable value (by simp [Argument.parts])).item false le deep)
        (.inr rfl)

theorem call {function : Expr} {arguments : List Argument} (readable : Readable function)
    (readable' : ∀ argument ∈ arguments, ∀ part ∈ argument.parts, Readable part) :
    Readable (.call function arguments) := by
  refine .ofChain rfl fun k le => ?_
  simp only [Expr.depth, Expr.inner, Position.levels_depth, Position.enclose_inner] at le ⊢
  have isArgument (k : Nat) (le : most (arguments.map fun argument => argument.depth) ≤ k) :
      ∀ shape ∈ arguments.map fun argument => argument.shape, IsArgument (nestedFor k)
        (most (arguments.map fun argument => argument.depth)) shape := by
    intro shape mem
    obtain ⟨argument, mem', rfl⟩ := List.mem_map.1 mem
    exact Readable.argument (readable' argument mem') (le_most (List.mem_map_of_mem mem')) le
  rw [Nat.add_comm 1] at le ⊢
  refine (readable.linkable k (by omega)).call (reads_nested (fun k le => ?_) (by omega)) rfl
  exact (makes_arguments (isArgument k le)).reads

theorem subscript {object index : Expr} (readable : Readable object) (readable' : Readable index) :
    Readable (.subscript object index) := by
  refine .ofChain rfl fun k le => ?_
  simp only [Expr.depth, Expr.inner, Position.levels_depth, Position.enclose_inner] at le ⊢
  refine (readable.linkable k (by omega)).subscript fun lexed stage left rest deep => ?_
  simp only [Shape.leavesAll_cons, Shape.leavesAll_nil, Shape.leaves_ofKind, List.append_nil,
    List.append_assoc, List.cons_append, List.nil_append] at rest
  have passed := (index.sound false false .alone).passed (spelled rbracket :: left) 0 0 (by decide)
  rw [Shape.leavesAll_cons, Shape.leavesAll_nil, List.append_nil] at passed
  exact gives_subscript (readable'.readIn .alone k false (by omega)) rest (passed.trans rfl) deep

/-! ## Slices -/

theorem part {part? : Option Expr} (readable : ∀ part ∈ part?.toList, Readable part)
    (le : partDepth false part? ≤ levels) (deep : levels ≤ k) :
    IsPart (nestedFor k) levels (partShapes false part?) := by
  cases part? with
  | none =>
      rw [partDepth, if_neg Bool.false_ne_true] at le
      rw [partShapes, if_neg Bool.false_ne_true]
      obtain ⟨k, rfl⟩ := Nat.exists_eq_succ_of_ne_zero (show k ≠ 0 by omega)
      have declines : Declines (test (nestedFor (k + 1)) false) 1 Absent := declines_conditional.nest
      exact .absent (Declines.weaken declines le)
  | some part =>
      simp only [partDepth, partShapes, Position.levels_depth, Position.enclose_inner] at le ⊢
      exact .present ((readable part (by simp)).item false le deep)

theorem marked {part? : Option Expr} (readable : ∀ part ∈ part?.toList, Readable part)
    (le : partDepth true part? ≤ levels) (deep : levels ≤ k) :
    IsMarked (nestedFor k) levels (partShapes true part?) := by
  cases part? with
  | none =>
      rw [partShapes, if_pos rfl]
      exact .absent
  | some part =>
      simp only [partDepth, partShapes, Position.levels_depth, Position.enclose_inner] at le ⊢
      exact .present ((readable part (by simp)).item false le deep)

/-- The bounds of an item after the first. -/
theorem bounds {bounds : Bounds} {last : Bool} (readable : ∀ part ∈ bounds.parts, Readable part)
    (le : bounds.depth false last ≤ levels) (deep : levels ≤ k) :
    IsSliceItem (nestedFor k) levels (bounds.shapes false last) := by
  cases bounds with
  | pair start? stop? =>
      obtain ⟨start, stop⟩ := List.forall_mem_append.1 readable
      rw [Bounds.depth, Bool.false_and] at le
      rw [Bounds.shapes, Bool.false_and]
      exact .pair (part start (by omega) deep) (part stop (by omega) deep)
  | triple start? stop? step? =>
      obtain ⟨both, step⟩ := List.forall_mem_append.1 readable
      obtain ⟨start, stop⟩ := List.forall_mem_append.1 both
      simp only [Bounds.depth, most, List.foldr_cons, List.foldr_nil, Nat.max_le, Nat.zero_le,
        and_true] at le
      rw [Bounds.shapes]
      exact .triple (part start le.1 deep) (part stop le.2.1 deep) (part step le.2.2 deep)

/-- The bounds of the first item. -/
theorem firstBounds {bounds : Bounds} {last : Bool}
    (readable : ∀ part ∈ bounds.parts, Readable part) (le : bounds.depth true last ≤ levels)
    (deep : levels ≤ k) : IsFirstItem (nestedFor k) levels last (bounds.shapes true last) := by
  cases bounds with
  | pair start? stop? =>
      obtain ⟨start, stop⟩ := List.forall_mem_append.1 readable
      rw [Bounds.depth, Bool.true_and] at le
      rw [Bounds.shapes, Bool.true_and]
      have isStart := marked start (show _ ≤ levels by omega) deep
      cases last with
      | false => exact .pair isStart (part stop (by omega) deep) (.inr rfl)
      | true => cases stop? with
        | none =>
            rw [partShapes, if_pos rfl]
            exact .unbounded isStart rfl
        | some stop' =>
            have le' : partDepth true (some stop') ≤ levels := by omega
            simp only [partDepth, Position.levels_depth] at le'
            rw [partShapes, Position.enclose_inner]
            have isStop := (stop stop' (by simp)).item false le' deep
            exact .pair isStart (.present isStop) (.inl (by rintro ⟨⟩))
  | triple start? stop? step? =>
      obtain ⟨both, step⟩ := List.forall_mem_append.1 readable
      obtain ⟨start, stop⟩ := List.forall_mem_append.1 both
      simp only [Bounds.depth, most, List.foldr_cons, List.foldr_nil, Nat.max_le, Nat.zero_le,
        and_true] at le
      rw [Bounds.shapes]
      exact .triple (marked start le.1 deep) (marked stop le.2.1 deep) (part step le.2.2 deep)

theorem sliceItem {item : SliceItem} (readable : ∀ part ∈ item.parts, Readable part)
    (le : item.depth ≤ levels) (deep : levels ≤ k) :
    ∃ parts, IsSliceItem (nestedFor k) levels parts ∧ item.shape = .node .sliceItem none parts := by
  cases item with
  | index value =>
      simp only [SliceItem.depth, SliceItem.shape, Position.levels_depth, Position.enclose_inner] at le ⊢
      exact ⟨_, .index ((readable value (by simp [SliceItem.parts])).item false le deep), rfl⟩
  | bounded bounds =>
      rw [SliceItem.depth] at le
      rw [SliceItem.shape]
      exact ⟨_, Readable.bounds readable le deep, rfl⟩

theorem sliceItems {items : List SliceItem}
    (readable : ∀ item ∈ items, ∀ part ∈ item.parts, Readable part)
    (le : ∀ item ∈ items, item.depth ≤ levels) (deep : levels ≤ k) :
    AreSliceItems (nestedFor k) levels (items.map fun item => item.shape) := by
  intro shape mem
  obtain ⟨item, mem', rfl⟩ := List.mem_map.1 mem
  exact sliceItem (readable item mem') (le item mem') deep

/-- The items of a slice. -/
theorem allItems {before : List Expr} {bounds : Bounds} {after : List SliceItem}
    (readable : ∀ item ∈ before, Readable item) (readable' : ∀ part ∈ bounds.parts, Readable part)
    (readable'' : ∀ item ∈ after, ∀ part ∈ item.parts, Readable part)
    (le : most (before.map (fun item => item.nesting .test) ++
      bounds.depth before.isEmpty after.isEmpty :: after.map fun item => item.depth) ≤ levels)
    (deep : levels ≤ k) : ∃ first others, IsFirstItem (nestedFor k) levels others.isEmpty first ∧
      AreSliceItems (nestedFor k) levels others ∧
      before.map (fun item => .node .sliceItem none [item.shape false .test]) ++
        .node .sliceItem none (bounds.shapes before.isEmpty after.isEmpty) ::
        after.map (fun item => item.shape) = .node .sliceItem none first :: others := by
  have le {n : Nat} (mem : n ∈ _) := Nat.le_trans (le_most mem) le
  have afterLe (item : SliceItem) (mem : item ∈ after) : item.depth ≤ levels :=
    le (List.mem_append_right _ (List.mem_cons_of_mem _ (List.mem_map_of_mem mem)))
  have others := sliceItems readable'' afterLe deep
  cases before with
  | nil =>
      refine ⟨_, _, ?_, others, rfl⟩
      rw [List.isEmpty_map]
      exact firstBounds readable' (le (by simp)) deep
  | cons first before =>
      obtain ⟨isFirst, areBefore⟩ := List.forall_mem_cons.1 readable
      refine ⟨_, _, .index (isFirst.item false (le (by simp)) deep), ?_, rfl⟩
      refine List.forall_mem_append.2 ⟨fun shape mem => ?_, List.forall_mem_cons.2 ⟨?_, others⟩⟩
      · obtain ⟨item, mem', rfl⟩ := List.mem_map.1 mem
        exact ⟨_, .index ((areBefore item mem').item false (le (by
          refine List.mem_append_left _ (List.mem_cons_of_mem _ (List.mem_map_of_mem mem'))))
          deep), rfl⟩
      · exact ⟨_, Readable.bounds readable' (le (by simp)) deep, rfl⟩

theorem slice {object : Expr} {before : List Expr} {bounds : Bounds} {after : List SliceItem}
    (readable : Readable object) (items : ∀ item ∈ before, Readable item)
    (items' : ∀ part ∈ bounds.parts, Readable part)
    (items'' : ∀ item ∈ after, ∀ part ∈ item.parts, Readable part) :
    Readable (.slice object before bounds after) := by
  refine .ofChain rfl fun k le => ?_
  simp only [Expr.depth, Expr.inner, Position.levels_depth, Position.enclose_inner] at le ⊢
  obtain ⟨first, others, isFirst, areItems, same⟩ :=
    allItems items items' items'' (Nat.le_refl _) (Nat.le_trans (Nat.le_max_right _ _) le)
  have colon (left : List Piece) := hasSliceColon_slice before bounds before.isEmpty after.isEmpty
    (after.map fun item => item.shape) (spelled rbracket :: left)
  rw [same] at colon ⊢
  exact (readable.linkable k (by omega)).subscript fun _ _ _ rest deep =>
    gives_subscript_slice isFirst areItems colon rest deep

/-! ## Operations -/

theorem power {base exponent : Expr} (readable : Readable base) (readable' : Readable exponent) :
    Readable (.power base exponent) := by
  refine .ofLevel (show _ = Tier.power.rank from rfl) (by decide) fun k target le => ?_
  simp only [Expr.depth, Expr.inner, Position.levels_depth, Position.enclose_inner] at le ⊢
  rw [Nat.add_comm 1] at le ⊢
  refine reads_power ((readable.linkable k (by omega)).reads target)
    (reads_nested (fun k le => ?_) (by omega))
  exact (readable'.readIn (.operand .sign)).rule (by decide) target le

theorem signed {operand : Expr} (readable : Readable operand) (sign : Sign) :
    Readable (.signed sign operand) := by
  refine .ofLevel (show _ = Tier.sign.rank from rfl) (by decide) fun k target le => ?_
  simp only [Expr.depth, Expr.inner, Position.levels_depth, Position.enclose_inner] at le ⊢
  rw [Nat.add_comm] at le ⊢
  refine reads_unary (reads_nested (fun k le => ?_) le)
  exact reads_prefixed ((readable.readIn (.operand .sign)).rule (by decide) target le)

theorem negation {operand : Expr} (readable : Readable operand) : Readable (.negation operand) := by
  refine .ofLevel (show _ = Tier.negation.rank from rfl) (by decide) fun k target le => ?_
  simp only [Expr.depth, Expr.inner, Position.levels_depth, Position.enclose_inner] at le ⊢
  rw [Nat.add_comm] at le ⊢
  refine reads_negation (reads_nested (fun k le => ?_) le)
  exact reads_prefixed ((readable.readIn (.operand .negation)).rule (by decide) target le)

theorem binary {left right : Expr} (readable : Readable left) (readable' : Readable right)
    (operator : Binary) : Readable (.binary operator left right) := by
  refine .ofLevel (show _ = (Tier.ladder operator.level).rank from rfl) (by rintro ⟨⟩)
    fun k target le => ?_
  simp only [Expr.depth, Expr.inner, Position.levels_depth, Position.enclose_inner] at le ⊢
  have noPower : (Tier.ladder operator.level).tighter ≠ .power := by cases operator <;> decide
  have next := Tier.rank_tighter (.ladder operator.level) (by rintro ⟨⟩)
  have heads := readable.readIn (.operand (.ladder operator.level)) k target
    (Nat.le_trans (Nat.le_max_left _ _) le)
  have reads := (readable'.readIn (.operand (Tier.ladder operator.level).tighter)).rule noPower target
    (Nat.le_trans (Nat.le_max_right _ _) le)
  have starts := right.starts target (.operand (Tier.ladder operator.level).tighter)
  rw [Position.start] at starts
  rw [next] at reads starts
  exact Heads.operator heads reads starts

/-! ## Choices -/

theorem conditional {value condition otherwise : Expr} (readable : Readable value)
    (readable' : Readable condition) (readable'' : Readable otherwise) :
    Readable (.conditional value condition otherwise) := by
  have test : (Expr.conditional value condition otherwise).ReadIn .test := by
    intro k target le
    rw [Expr.nesting_of_admits rfl, Position.entry_test, Nat.add_comm] at le ⊢
    rw [Expr.shape_of_admits rfl]
    simp only [Expr.depth, Expr.inner, Position.levels_depth, Position.enclose_inner] at le ⊢
    have starts := value.starts target (.operand (.ladder .disjunction))
    refine reads_nested (fun k le => ?_) le
    refine Reads.conditional (reads_choice ?_ ?_ ?_) (starts.append (by rintro ⟨⟩))
    · exact (readable.readIn (.operand (.ladder .disjunction))).rule (by decide) target (by omega)
    · exact (readable'.readIn (.operand (.ladder .disjunction))).rule (by decide) target (by omega)
    · exact readable''.readIn .test k target (by omega)
  have alone := test.alone ⟨fun target => by
      rw [Expr.shape_of_admits rfl, Expr.shape_of_admits rfl, Expr.inner, Expr.inner], by
      rw [Expr.nesting_of_admits rfl, Expr.nesting_of_admits rfl, Expr.depth, Expr.depth]
      rfl⟩ (Nat.le_refl 1)
  have operand (level : Tier) :
      (Expr.conditional value condition otherwise).ReadIn (.operand level) :=
    alone.operand_of_not_admits (decide_eq_false (Nat.not_le_of_lt level.two_le_rank))
  have item := (operand (.ladder .disjunction)).rangeItem (Expr.same_of_not_admits rfl rfl)
  refine ⟨fun position => ?_, Expr.linkable_of_not_admits alone rfl⟩
  cases position with
  | alone => exact alone
  | test => exact test
  | range => exact item.range (Expr.same_of_not_admits rfl rfl)
  | rangeItem => exact item
  | condition => exact (operand (.ladder .disjunction)).condition (Expr.same_of_not_admits rfl rfl)
  | targets => exact (operand (.ladder .bitOr)).targets (Expr.same_of_not_admits rfl rfl)
  | operand level => exact operand level

/-! ## Lambdas -/

theorem parameter {parameter : Parameter} {stop : Kind} (readable : ∀ part ∈ parameter.parts, Readable part)
    (le : parameter.depth ≤ levels) (deep : levels ≤ k) (closes : stop = .colon ∨ stop = rpar) :
    IsParameter (nestedFor k) stop levels parameter.shape := by
  have other {kind : Kind} (other : kind ≠ .colon ∧ kind ≠ rpar) : stop ≠ kind := by
    rintro rfl
    exact closes.elim other.1 other.2
  cases parameter with
  | mandatory name =>
      rw [Parameter.shape]
      exact isParameter_mandatory (other ⟨by decide, by decide⟩) (other ⟨by decide, by decide⟩) name
  | optional name default =>
      simp only [Parameter.depth, Parameter.shape, Position.levels_depth, Position.enclose_inner] at le ⊢
      refine isParameter_optional ((readable default (by simp [Parameter.parts])).item false le deep)
        (other ⟨by decide, by decide⟩) (fun left next => ?_) name
      rw [Looser, next]
      rcases closes with rfl | rfl <;> exact Nat.one_pos
  | variadic name? =>
      rw [Parameter.shape]
      exact isParameter_variadic (other ⟨by decide, by decide⟩) (other ⟨by decide, by decide⟩) name?
  | keywordVariadic name =>
      rw [Parameter.shape]
      exact isParameter_keywordVariadic (other ⟨by decide, by decide⟩) name

theorem parameters {parameters : List Parameter} {stop : Kind}
    (readable : ∀ parameter ∈ parameters, ∀ part ∈ parameter.parts, Readable part)
    (le : most (parameters.map fun parameter => parameter.depth) ≤ levels) (deep : levels ≤ k)
    (closes : stop = .colon ∨ stop = rpar) :
    ∀ shape ∈ parameters.map fun parameter => parameter.shape,
      IsParameter (nestedFor k) stop levels shape := by
  intro shape mem
  obtain ⟨parameter, mem', rfl⟩ := List.mem_map.1 mem
  exact Readable.parameter (readable parameter mem')
    (Nat.le_trans (le_most (List.mem_map_of_mem mem')) le) deep closes

/-- A lambda with the given rule for its body. -/
theorem reads_lambda {parameters : List Parameter} {body : Expr} {position : Position} {rank : Nat}
    {rule : ParseM Bool}
    (readable : ∀ parameter ∈ parameters, ∀ part ∈ parameter.parts, Readable part)
    (le : (Expr.lambda parameters body).depth position ≤ k)
    (reads : Grammar.Reads rule (body.nesting position.body) (body.shape false position.body)
      (Looser rank)) (target : Bool) :
    Grammar.Reads (lambda (nestedFor k) rule) ((Expr.lambda parameters body).depth position)
      ((Expr.lambda parameters body).inner target position) (Looser rank) := by
  simp only [Expr.depth, Expr.inner, Position.levels_depth, Position.enclose_inner] at le ⊢
  exact Grammar.reads_lambda
    (Readable.parameters readable (Nat.le_refl _) (Nat.le_trans (Nat.le_max_left _ _) le) (.inl rfl))
    reads

theorem lambda {parameters : List Parameter} {body : Expr}
    (readable : ∀ parameter ∈ parameters, ∀ part ∈ parameter.parts, Readable part)
    (readable' : Readable body) : Readable (.lambda parameters body) := by
  have bodyLe {position : Position} {k : Nat}
      (le : (Expr.lambda parameters body).depth position ≤ k) : body.nesting position.body ≤ k := by
    simp only [Expr.depth, Position.levels_depth] at le
    omega
  have test : (Expr.lambda parameters body).ReadIn .test := by
    intro k target le
    rw [Expr.nesting_of_admits rfl, Position.entry_test, Nat.add_comm] at le ⊢
    rw [Expr.shape_of_admits rfl]
    refine reads_nested (fun k le => ?_) le
    have reads := reads_lambda readable le (readable'.readIn .test k false (bodyLe le)) target
    rw [Expr.inner] at reads ⊢
    exact reads_conditional_lambda reads
  have alone := test.alone ⟨fun target => by
      rw [Expr.shape_of_admits rfl, Expr.shape_of_admits rfl, Expr.inner, Expr.inner]; rfl, by
      rw [Expr.nesting_of_admits rfl, Expr.nesting_of_admits rfl, Expr.depth, Expr.depth]
      rfl⟩ (Nat.le_refl 1)
  have item : (Expr.lambda parameters body).ReadIn .rangeItem := by
    rintro k target le rfl
    rw [Expr.nesting_of_admits rfl, Position.entry_of_ne _ (by decide), Nat.zero_add] at le ⊢
    rw [Expr.shape_of_admits rfl]
    have reads := reads_lambda readable le (readable'.readIn .rangeItem k false (bodyLe le) rfl) false
    rw [Expr.inner] at reads ⊢
    exact reads_rangeItem_lambda reads
  have condition : (Expr.lambda parameters body).ReadIn .condition := by
    rintro k target le rfl
    rw [Expr.nesting_of_admits rfl, Position.entry_of_ne _ (by decide), Nat.zero_add] at le ⊢
    rw [Expr.shape_of_admits rfl]
    have reads := reads_lambda readable le (readable'.readIn .test k false (bodyLe le)) false
    rw [Expr.inner] at reads ⊢
    exact reads_condition_lambda reads
  have operand (level : Tier) : (Expr.lambda parameters body).ReadIn (.operand level) :=
    alone.operand_of_not_admits rfl
  refine ⟨fun position => ?_, Expr.linkable_of_not_admits alone rfl⟩
  cases position with
  | alone => exact alone
  | test => exact test
  | range =>
      refine item.range ⟨fun target => ?_, ?_⟩
      · rw [Expr.shape_of_admits rfl, Expr.shape_of_admits rfl, Expr.inner, Expr.inner]
        rfl
      · rw [Expr.nesting_of_admits rfl, Expr.nesting_of_admits rfl, Expr.depth, Expr.depth]
        rfl
  | rangeItem => exact item
  | condition => exact condition
  | targets => exact (operand (.ladder .bitOr)).targets (Expr.same_of_not_admits rfl rfl)
  | operand level => exact operand level

/-! ## Tuples -/

theorem afterFirst_map (others : List Expr) (shape : Expr → Shape) :
    afterFirst (others.map shape) = if others.isEmpty then [.ofKind .comma]
      else others.flatMap fun item => [.ofKind .comma, shape item] := by
  rw [afterFirst, List.isEmpty_map, List.flatMap_map]

theorem tuple {first : Expr} {others : List Expr}
    (readable : ∀ element ∈ first :: others, Readable element) :
    Readable (.tuple (first :: others)) := by
  have shape {position : Position} (admits : position.admitsTuple = true) (target : Bool) :
      (Expr.tuple (first :: others)).shape target position = .node .tupleExpression none
        (first.shape target position.item ::
          afterFirst (others.map fun element => element.shape target position.item)) := by
    rw [Expr.shape_of_admits (show position.admits (.tuple (first :: others)) = true from admits),
      afterFirst_map]
    simp only [Expr.inner, Position.enclose_inner]
  have nesting {position : Position} (admits : position.admitsTuple = true) :
      (Expr.tuple (first :: others)).nesting position =
        most ((first :: others).map fun element => element.nesting position.item) := by
    have noTest : position ≠ .test := by rintro rfl; cases admits
    rw [Expr.nesting_of_admits (show position.admits (.tuple (first :: others)) = true from admits),
      Position.entry, if_neg noTest, Nat.zero_add]
    simp only [Expr.depth, Position.levels_depth, List.map_cons]
  have each {position : Position} (target : Bool) {holds : Shape → Prop}
      (holdsOf : ∀ element ∈ first :: others, holds (element.shape target position.item)) :
      ∀ shape ∈ first.shape target position.item ::
        others.map fun element => element.shape target position.item, holds shape := by
    intro shape mem
    rw [← List.map_cons] at mem
    obtain ⟨element, mem', rfl⟩ := List.mem_map.1 mem
    exact holdsOf element mem'
  have alone : (Expr.tuple (first :: others)).ReadIn .alone := by
    intro k target le
    rw [nesting rfl] at le ⊢
    rw [shape rfl]
    have pos : 1 ≤ most ((first :: others).map fun element => element.nesting .test) := by
      refine Nat.le_trans ?_ (Expr.nesting_le_most List.mem_cons_self .test)
      rw [Expr.nesting, Position.levels, Position.entry_test]
      exact Nat.le_add_right 1 _
    refine reads_tupleOf Nat.one_pos (each target fun element mem => ?_) fun _ => ?_
    · exact ((readable element mem).item target (Expr.nesting_le_most mem .test) le).reads
    · obtain ⟨k, rfl⟩ := Nat.exists_eq_succ_of_ne_zero (Nat.pos_iff_ne_zero.1 (Nat.le_trans pos le))
      have declines : Declines (test (nestedFor (k + 1)) target) 1 Absent := declines_conditional.nest
      exact Declines.weaken declines pos
  have operand (level : Tier) : (Expr.tuple (first :: others)).ReadIn (.operand level) :=
    alone.operand_of_not_admits rfl
  have range : (Expr.tuple (first :: others)).ReadIn .range := by
    rintro k target le rfl
    rw [nesting rfl] at le ⊢
    rw [shape rfl]
    refine reads_tupleOf Nat.two_pos (each false fun element mem => ?_)
      fun _ => Declines.weaken declines_rangeItem (Nat.zero_le _)
    have le' := Expr.nesting_le_most mem .rangeItem
    exact ((readable element mem).readIn .rangeItem k false (Nat.le_trans le' le) rfl).weaken le'
      fun _ => id
  have targets : (Expr.tuple (first :: others)).ReadIn .targets := by
    rintro k target le rfl lexed stage left rest ends deep
    rw [nesting rfl] at le deep
    rw [shape rfl] at rest ⊢
    refine gives_targets (Nat.succ_pos 5) (each true fun element mem => ?_)
      (fun _ => Declines.weaken declines_starExpression (Nat.zero_le _)) rest ends deep
    have le' := Expr.nesting_le_most mem (.operand (.ladder .bitOr))
    have starts := (element.starts true (.operand (.ladder .bitOr))).mono (show 1 ≤ 6 by decide)
    have reads : Grammar.Reads (starExpression (nestedFor k) true) _ _ _ :=
      (((readable element mem).readIn (.operand (.ladder .bitOr))).rule (by decide) true
        (Nat.le_trans le' le)).starred starts rfl
    exact reads.weaken le' fun _ => id
  refine ⟨fun position => ?_, Expr.linkable_of_not_admits alone rfl⟩
  cases position with
  | alone => exact alone
  | test => exact (operand (.ladder .disjunction)).test (Expr.same_of_not_admits rfl rfl)
  | range => exact range
  | rangeItem => exact (operand (.ladder .disjunction)).rangeItem (Expr.same_of_not_admits rfl rfl)
  | condition => exact (operand (.ladder .disjunction)).condition (Expr.same_of_not_admits rfl rfl)
  | targets => exact targets
  | operand level => exact operand level

end Readable

/-- Every expression is read in every position. -/
theorem Expr.readable (expr : Expr) : Readable expr := by
  induction expr using Expr.induction with
  | step expr ih =>
  cases expr with
  | name name => exact .name name
  | literal literal => exact .literal literal
  | dotted object name => exact .dotted (ih object (by simp [parts])) name
  | call function arguments =>
      exact .call (ih function (by simp [parts])) fun argument mem part mem' =>
        ih part (List.mem_cons_of_mem _ (List.mem_flatMap.2 ⟨argument, mem, mem'⟩))
  | subscript object index =>
      exact .subscript (ih object (by simp [parts])) (ih index (by simp [parts]))
  | slice object before bounds after =>
      refine .slice (ih object (by simp [parts])) (fun item mem => ih item (by simp [parts, mem]))
        (fun part mem => ih part (by simp [parts, mem])) fun item mem part mem' => ih part ?_
      exact List.mem_append_right _ (List.mem_flatMap.2 ⟨item, mem, mem'⟩)
  | parenthesized inner => exact .parenthesized (ih inner (by simp [parts]))
  | tuple elements =>
      cases elements with
      | nil => exact .emptyTuple
      | cons first others => exact .tuple ih
  | list elements => exact .list ih
  | set first others => exact .set ih
  | dict entries =>
      exact .dict fun entry mem part mem' => ih part (List.mem_flatMap.2 ⟨entry, mem, mem'⟩)
  | listComprehension element first others =>
      refine .listComprehension (ih element (by simp [parts])) ?_
      refine List.forall_mem_cons.2 ⟨fun part mem => ih part (by simp [parts, mem]), ?_⟩
      exact fun clause mem part mem' => ih part
        (List.mem_append_right _ (List.mem_flatMap.2 ⟨clause, mem, mem'⟩))
  | dictComprehension entry first others =>
      refine .dictComprehension (fun part mem => ih part (by simp [parts, mem])) ?_
      refine List.forall_mem_cons.2 ⟨fun part mem => ih part (by simp [parts, mem]), ?_⟩
      exact fun clause mem part mem' => ih part
        (List.mem_append_right _ (List.mem_flatMap.2 ⟨clause, mem, mem'⟩))
  | power left right => exact .power (ih left (by simp [parts])) (ih right (by simp [parts]))
  | signed sign operand => exact .signed (ih operand (by simp [parts])) sign
  | negation operand => exact .negation (ih operand (by simp [parts]))
  | binary operator left right =>
      exact .binary (ih left (by simp [parts])) (ih right (by simp [parts])) operator
  | conditional value condition otherwise =>
      exact .conditional (ih value (by simp [parts])) (ih condition (by simp [parts]))
        (ih otherwise (by simp [parts]))
  | lambda parameters body =>
      exact .lambda (fun parameter mem part mem' => ih part
        (List.mem_cons_of_mem _ (List.mem_flatMap.2 ⟨parameter, mem, mem'⟩)))
        (ih body (by simp [parts]))

end StarlarkSyntax
