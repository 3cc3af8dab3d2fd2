import StarlarkSyntax.Proofs.Print.Ahead
/-!
# Reading chains

A chain is read on an assumption about what is assigned to. `Chains` says that its links are reached
with some shape as what there is so far, and `Retries` that the assumption turns out to be wrong.
`IsChain` gathers what holds of an expression under each of the assumptions, and is kept by points,
calls and subscripts; from it follows that the chain is read under the right one (`IsChain.reads`).
-/

set_option autoImplicit false

namespace StarlarkSyntax

open Layout (Piece)
open Stage (Inside Adds)

namespace Grammar

variable {nested : Nested} {assigned : Assigned} {levels levels' : Nat} {shape : Shape}
  {follows : List Piece → Prop}

/-- The links of a chain, when its first expression has been read. -/
def links (nested : Nested) (assigned : Assigned) (marker : Marker) : ParseM ChainEnd := do
  let ended ← loop (link nested assigned) { marker }
  match ended.retry? with
  | some assigned => pure (.retry assigned)
  | none => pure .found

theorem chain_eq (nested : Nested) (assigned : Assigned) : chain nested assigned = (do
    let marker ← mark
    if !(← primary nested (assigned = .first)) then
      drop marker
      pure .missing
    else links nested assigned marker) := rfl

/-- On an assumption, the rule gets to the links of a chain with a shape as what there is so far. -/
def Chains (nested : Nested) (assigned : Assigned) (levels : Nat) (shape : Shape)
    (follows : List Piece → Prop) : Prop :=
  ∀ ⦃lexed : Lexed⦄ (stage : Stage lexed) (more : List Piece)
    (post : ChainEnd → Stage lexed → Prop), stage.rest = shape.leaves ++ more → follows more →
    stage.place.depth + levels ≤ Builder.maxDepth →
    (∀ marker after, Inside stage marker [shape] after → after.rest = more →
      Reaches (links nested assigned marker) after post) →
    Reaches (chain nested assigned) stage post

/-- The assumption turns out to be wrong. -/
def Retries (nested : Nested) (assigned : Assigned) (levels : Nat) (leaves : List Piece)
    (weaker : Assigned) : Prop :=
  ∀ ⦃lexed : Lexed⦄ (stage : Stage lexed) (more : List Piece), stage.rest = leaves ++ more →
    stage.place.depth + levels ≤ Builder.maxDepth →
    Gives (chain nested assigned) stage (.retry weaker) []

theorem Chains.weaken (chains : Chains nested assigned levels shape follows)
    (le : levels ≤ levels') {follows' : List Piece → Prop}
    (stronger : ∀ left, follows' left → follows left) :
    Chains nested assigned levels' shape follows' :=
  fun _ stage more post rest follow deep =>
    chains stage more post rest (stronger more follow) (by omega)

theorem Retries.weaken {leaves : List Piece} {weaker : Assigned}
    (retries : Retries nested assigned levels leaves weaker) (le : levels ≤ levels') :
    Retries nested assigned levels' leaves weaker :=
  fun _ stage more rest deep => retries stage more rest (by omega)

theorem Retries.append {leaves : List Piece} {weaker : Assigned}
    (retries : Retries nested assigned levels leaves weaker) (le : levels ≤ levels')
    (left : List Piece) : Retries nested assigned levels' (leaves ++ left) weaker :=
  fun _ stage more rest deep =>
    retries stage (left ++ more) (rest.trans (List.append_assoc ..)) (by omega)

/-! ## First expressions -/

theorem reads_name (name : Name) (target : Bool) : Reads (primary nested target) 0
    (.node (nameKind target) none [.ofName name]) fun _ => True := by
  intro lexed stage left rest _ _
  refine Reaches.bind (reaches_current? rest ?_)
  exact (gives_tokenNode rest _).andThen fun after adds => reaches_pure ⟨rfl, adds⟩

theorem reads_literal (literal : Literal) (target : Bool) : Reads (primary nested target) 0
    (.node literal.nodeKind none [.token (literal.kind, literal.spelling)])
    fun _ => True := by
  obtain ⟨kind, spelling, is, -⟩ := literal
  intro lexed stage left rest _ _
  refine Reaches.bind (reaches_current? rest ?_)
  cases kind with
  | int | float | string | bytes =>
      exact (gives_tokenNode rest _).andThen fun after adds => reaches_pure ⟨rfl, adds⟩
  | _ => cases is

theorem ReadsWhere.primary {holds : Place → Prop} {target : Bool} {delimiter : Delimiter}
    {more : List Piece} (reads : ReadsWhere holds (nested (.display delimiter target)) shape fun _ => True)
    (opening : shape.leaves = spelled (.opening delimiter) :: more) :
    ReadsWhere holds (Grammar.primary nested target) shape fun _ => True := by
  intro lexed stage left rest _ here
  have next : nextKind stage.rest = some (.opening delimiter) := by
    rw [rest, opening]
    rfl
  refine Reaches.bind (reaches_current? rfl ?_)
  rw [next]
  exact reads stage left rest trivial here

theorem reads_display {target : Bool} {delimiter : Delimiter} {more : List Piece}
    (reads : Reads (nested (.display delimiter target)) levels shape fun _ => True)
    (opening : shape.leaves = spelled (.opening delimiter) :: more) :
    Reads (primary nested target) levels shape fun _ => True :=
  reads_iff.2 ((reads_iff.1 reads).primary opening)

/-! ## Links -/

/-- A chain begins with what is not linked. -/
theorem chains_primary {target : Bool}
    (reads : Reads (primary nested target) levels shape fun _ => True)
    (first : decide (assigned = .first) = target) :
    Chains nested assigned levels shape fun _ => True := by
  intro lexed stage more post rest _ deep reached
  rw [chain_eq, first]
  refine Reaches.bind (reaches_mark fun marker marked inside same => ?_)
  refine reads.bind (same.trans rest) trivial (by rw [inside.later.place]; exact deep)
    fun after adds rest => ?_
  exact reached marker after (inside.adds adds) rest

/-- Does another link of a chain come? -/
def isLink (left : List Piece) : Bool :=
  (nextKind left).any [.dot, lpar, lbracket].contains

theorem isLink_eq_false {left : List Piece} (looser : Looser 14 left) : isLink left = false := by
  rw [Looser] at looser
  rw [isLink]
  generalize nextKind left = current? at looser ⊢
  cases current? with
  | none => rfl
  | some kind =>
      cases kind with
      | dot => exact absurd looser (Nat.lt_irrefl 14)
      | opening delimiter =>
          cases delimiter with
          | brace => rfl
          | _ => exact absurd looser (Nat.lt_irrefl 14)
      | _ => rfl

/-- A point and a name make a target of what there is so far, if nothing else follows. -/
theorem Chains.dotted (chains : Chains nested assigned levels shape follows)
    (notFirst : assigned ≠ .first) (follow : ∀ left, follows (spelled .dot :: left)) (name : Name)
    (more : Bool) : Chains nested assigned levels
      (.node (nameKind (assigned = .last && !more)) none [shape, .ofKind .dot, .ofName name])
      fun left => isLink left = more := by
  intro lexed stage left post rest link deep reached
  simp only [Shape.leaves_node, Shape.leavesAll_cons, Shape.leavesAll_nil, Shape.leaves_ofKind,
    Shape.leaves_ofName, List.append_nil, List.append_assoc, List.cons_append,
    List.nil_append] at rest
  refine chains stage _ post rest (follow _) deep fun marker middle inside rest => ?_
  refine reaches_loop (Reaches.bind (reaches_current? rest ?_))
  show Reaches (if assigned = .first then _ else _) middle _
  rw [if_neg notFirst]
  refine Reaches.bind (reaches_advance rest fun dot adds rest => ?_)
  have inside := inside.adds adds
  refine Reaches.bind (reaches_expect rest rfl fun named adds rest => ?_)
  refine Reaches.bind (reaches_isAtAny rest link ?_)
  refine Reaches.bind (reaches_wrap (inside.adds adds) fun wrapper wrapped inside same => ?_)
  exact reaches_pure (reached wrapper wrapped inside (same.trans rest))

theorem Chains.call {arguments : Shape} {more : List Piece}
    (chains : Chains nested assigned levels shape follows)
    (follow : ∀ left, follows (spelled lpar :: left))
    (reads : Reads (nested .arguments) levels' arguments fun _ => True)
    (opening : arguments.leaves = spelled lpar :: more) :
    Chains nested assigned (max levels levels') (.node .callExpression none [shape, arguments])
      fun _ => True := by
  intro lexed stage left post rest _ deep reached
  simp only [Shape.leaves_node, Shape.leavesAll_cons, Shape.leavesAll_nil, List.append_nil,
    List.append_assoc] at rest
  refine chains stage _ post rest (by rw [opening]; exact follow _) (by omega)
    fun marker middle inside rest => ?_
  have place := inside.later.place
  refine reaches_loop (Reaches.bind (reaches_current? rest ?_))
  rw [opening]
  refine reads.bind rest trivial (by rw [place]; omega) fun after adds rest => ?_
  refine Reaches.bind (reaches_wrap (inside.adds adds) fun wrapper wrapped inside same => ?_)
  exact reaches_pure (reached wrapper wrapped inside (same.trans rest))

/-- The brackets of a subscript or of a slice. -/
theorem Chains.subscript {shapes : List Shape} {kind : NodeKind}
    (chains : Chains nested .nothing levels shape fun _ => True)
    (gives : ∀ ⦃lexed : Lexed⦄ (stage : Stage lexed) (left : List Piece),
      stage.rest = Shape.leavesAll shapes ++ left → stage.place.depth + levels' ≤ Builder.maxDepth →
      Gives (Grammar.subscript nested) stage kind shapes) :
    Chains nested .nothing (max levels levels') (.node kind none (shape :: .ofKind lbracket :: shapes))
      fun _ => True := by
  intro lexed stage left post rest _ deep reached
  simp only [Shape.leaves_node, Shape.leavesAll_cons, Shape.leaves_ofKind, List.append_assoc,
    List.cons_append, List.nil_append] at rest
  refine chains stage _ post rest trivial (by omega) fun marker middle inside rest => ?_
  refine reaches_loop (Reaches.bind (reaches_current? rest ?_))
  refine Reaches.bind (reaches_advance rest fun opened adds rest => ?_)
  have inside := inside.adds adds
  refine (gives opened left rest (by rw [inside.later.place]; omega)).bind rest
    fun closed adds rest => ?_
  refine Reaches.bind (reaches_wrap (inside.adds adds) fun wrapper wrapped inside same => ?_)
  exact reaches_pure (reached wrapper wrapped inside (same.trans rest))

/-! ## Ends -/

/-- A chain ends where no link comes. -/
theorem gives_links {lexed : Lexed} {stage after : Stage lexed} {marker : Marker} {left : List Piece}
    (inside : Inside stage marker [shape] after) (rest : after.rest = left)
    (noLink : isLink left = false) :
    Reaches (links nested assigned marker) after fun ended last =>
      ended = .found ∧ Adds stage [shape] last := by
  refine reaches_loop (Reaches.bind (reaches_current? rest ?_))
  rw [isLink] at noLink
  generalize nextKind left = current? at noLink ⊢
  have ends {post : Bool × Chain → Stage lexed → Prop}
      (reached : ∀ last, Adds stage [shape] last → post (false, { marker }) last) :
      Reaches (do drop marker; pure (false, { marker })) after post :=
    Reaches.bind (reaches_drop inside fun last adds _ => reaches_pure (reached last adds))
  cases current? with
  | none => exact ends fun last adds => reaches_pure ⟨rfl, adds⟩
  | some kind =>
      cases kind with
      | dot => cases noLink
      | opening delimiter =>
          cases delimiter with
          | brace => exact ends fun last adds => reaches_pure ⟨rfl, adds⟩
          | _ => cases noLink
      | _ => exact ends fun last adds => reaches_pure ⟨rfl, adds⟩

theorem Chains.found {lexed : Lexed} {stage : Stage lexed} {left : List Piece}
    (chains : Chains nested assigned levels shape follows)
    (rest : stage.rest = shape.leaves ++ left) (follow : follows left) (noLink : isLink left = false)
    (deep : stage.place.depth + levels ≤ Builder.maxDepth) :
    Gives (chain nested assigned) stage .found [shape] :=
  chains stage left _ rest follow deep fun _ _ inside rest => gives_links inside rest noLink

/-- A chain that is found under an assumption. -/
theorem gives_chainFrom {lexed : Lexed} {stage : Stage lexed}
    (gives : Gives (chain nested assigned) stage .found [shape]) :
    Gives (nested.chainFrom assigned) stage true [shape] := by
  rw [Nested.chainFrom]
  exact gives.andThen fun after adds => reaches_pure ⟨rfl, adds⟩

/-- What is not linked, and is no target. -/
theorem ReadsWhere.member {holds : Place → Prop}
    (reads : ReadsWhere holds (Grammar.primary nested false) shape fun _ => True) :
    ReadsWhere holds (Grammar.member nested false) shape (Looser 14) := by
  intro lexed stage left rest looser here
  refine gives_chainFrom ?_
  rw [chain_eq]
  refine Reaches.bind (reaches_mark fun marker marked inside same => ?_)
  refine reads.bind (same.trans rest) trivial (by rw [inside.later.place]; exact here)
    fun after adds rest => ?_
  exact gives_links (inside.adds adds) rest (isLink_eq_false looser)

/-- A point shows that the first name is not assigned to. -/
theorem Chains.retries_dot (chains : Chains nested .first levels shape follows)
    (follow : ∀ left, follows (spelled .dot :: left)) (left : List Piece) :
    Retries nested .first levels (shape.leaves ++ spelled .dot :: left) .last := by
  intro lexed stage more rest deep
  rw [List.append_assoc, List.cons_append] at rest
  refine chains stage _ _ rest (follow _) deep fun marker after inside rest => ?_
  refine reaches_loop (Reaches.bind (reaches_current? rest ?_))
  refine Reaches.bind (reaches_rollback inside fun back adds _ => ?_)
  exact reaches_pure (reaches_pure ⟨rfl, adds⟩)

/-- A subscript shows that no name is assigned to. -/
theorem Chains.retries_bracket (chains : Chains nested assigned levels shape follows)
    (some : assigned ≠ .nothing) (follow : ∀ left, follows (spelled lbracket :: left))
    (left : List Piece) :
    Retries nested assigned levels (shape.leaves ++ spelled lbracket :: left) .nothing := by
  intro lexed stage more rest deep
  rw [List.append_assoc, List.cons_append] at rest
  refine chains stage _ _ rest (follow _) deep fun marker after inside rest => ?_
  refine reaches_loop (Reaches.bind (reaches_current? rest ?_))
  show Reaches (if assigned = .nothing then _ else _) after _
  rw [if_neg some]
  refine Reaches.bind (reaches_rollback inside fun back adds _ => ?_)
  exact reaches_pure (reaches_pure ⟨rfl, adds⟩)

/-! ## All assumptions -/

/-- What holds of a chain under each of the assumptions. Its shape depends on whether it is assigned
to; whether there are links and subscripts decides which assumption is the right one. -/
structure IsChain (nested : Nested) (levels : Nat) (unlinked unsubscripted : Bool)
    (shape : Bool → Shape) : Prop where
  leaves : (shape true).leaves = (shape false).leaves
  untargeted : unsubscripted = false → shape true = shape false
  first : unlinked = true → Chains nested .first levels (shape true) fun _ => True
  last : unsubscripted = true → Chains nested .last levels (shape false) (isLink · = true)
  lastTarget : unsubscripted = true → unlinked = false →
    Chains nested .last levels (shape true) (isLink · = false)
  nothing : Chains nested .nothing levels (shape false) fun _ => True
  retriesFirst : unlinked = false → Retries nested .first levels (shape false).leaves .last ∨
    unsubscripted = false ∧ Retries nested .first levels (shape false).leaves .nothing
  retriesLast : unsubscripted = false → Retries nested .last levels (shape false).leaves .nothing

namespace IsChain

variable {unlinked unsubscripted : Bool} {shape : Bool → Shape}

/-- What is not linked. -/
theorem primary (leaves : (shape true).leaves = (shape false).leaves)
    (reads : ∀ target, Reads (Grammar.primary nested target) levels (shape target) fun _ => True) :
    IsChain nested levels true true shape where
  leaves := leaves
  untargeted := nofun
  first := fun _ => chains_primary (reads true) rfl
  last := fun _ => (chains_primary (reads false) rfl).weaken (Nat.le_refl _) fun _ _ => trivial
  lastTarget := nofun
  nothing := chains_primary (reads false) rfl
  retriesFirst := nofun
  retriesLast := nofun

theorem dotted (isChain : IsChain nested levels unlinked unsubscripted shape) (name : Name) :
    IsChain nested levels false unsubscripted fun target =>
      .node (nameKind (target && unsubscripted)) none [shape false, .ofKind .dot, .ofName name] where
  leaves := rfl
  untargeted := fun subscripted => by rw [subscripted]; rfl
  first := nofun
  last := fun is => (isChain.last is).dotted nofun (fun _ => rfl) name true
  lastTarget := fun is _ => by
    rw [is]
    exact (isChain.last is).dotted nofun (fun _ => rfl) name false
  nothing := by
    have either (more : Bool) := isChain.nothing.dotted nofun (fun _ => trivial) name more
    intro lexed stage left post rest _ deep reached
    exact either (isLink left) stage left post rest rfl deep reached
  retriesFirst := fun _ => by
    simp only [Shape.leaves_node, Shape.leavesAll_cons]
    cases unlinked with
    | true =>
        rw [← isChain.leaves]
        exact .inl ((isChain.first rfl).retries_dot (fun _ => trivial) _)
    | false =>
        exact (isChain.retriesFirst rfl).imp (·.append (Nat.le_refl _) _)
          (And.imp id (·.append (Nat.le_refl _) _))
  retriesLast := fun subscripted => by
    simp only [Shape.leaves_node, Shape.leavesAll_cons]
    exact (isChain.retriesLast subscripted).append (Nat.le_refl _) _

theorem call {arguments : Shape} {more : List Piece}
    (isChain : IsChain nested levels unlinked unsubscripted shape)
    (reads : Reads (nested .arguments) levels' arguments fun _ => True)
    (opening : arguments.leaves = spelled lpar :: more) :
    IsChain nested (max levels levels') unlinked unsubscripted fun target =>
      .node .callExpression none [shape (target && unlinked), arguments] where
  leaves := by cases unlinked <;> simp [isChain.leaves]
  untargeted := fun subscripted => by
    cases unlinked with
    | true => rw [Bool.and_self, isChain.untargeted subscripted]; rfl
    | false => rfl
  first := by
    rintro rfl
    exact (isChain.first rfl).call (fun _ => trivial) reads opening
  last := fun is =>
    ((isChain.last is).call (fun _ => rfl) reads opening).weaken (Nat.le_refl _) fun _ _ => trivial
  lastTarget := by
    rintro is rfl
    exact ((isChain.last is).call (fun _ => rfl) reads opening).weaken (Nat.le_refl _)
      fun _ _ => trivial
  nothing := isChain.nothing.call (fun _ => trivial) reads opening
  retriesFirst := fun linked => by
    simp only [Shape.leaves_node, Shape.leavesAll_cons, Bool.false_and]
    exact (isChain.retriesFirst linked).imp (·.append (Nat.le_max_left _ _) _)
      (And.imp id (·.append (Nat.le_max_left _ _) _))
  retriesLast := fun subscripted => by
    simp only [Shape.leaves_node, Shape.leavesAll_cons, Bool.false_and]
    exact (isChain.retriesLast subscripted).append (Nat.le_max_left _ _) _

theorem subscript {shapes : List Shape} {kind : NodeKind}
    (isChain : IsChain nested levels unlinked unsubscripted shape)
    (gives : ∀ ⦃lexed : Lexed⦄ (stage : Stage lexed) (left : List Piece),
      stage.rest = Shape.leavesAll shapes ++ left → stage.place.depth + levels' ≤ Builder.maxDepth →
      Gives (Grammar.subscript nested) stage kind shapes) :
    IsChain nested (max levels levels') false false fun _ =>
      .node kind none (shape false :: .ofKind lbracket :: shapes) where
  leaves := rfl
  untargeted := fun _ => rfl
  first := (by rintro ⟨⟩)
  last := (by rintro ⟨⟩)
  lastTarget := (by rintro ⟨⟩)
  nothing := isChain.nothing.subscript gives
  retriesFirst := fun _ => by
    rw [Shape.leaves_node, Shape.leavesAll_cons]
    cases unlinked with
    | true =>
        refine .inr ⟨rfl, ?_⟩
        rw [← isChain.leaves]
        have retries := (isChain.first rfl).retries_bracket (by decide) (fun _ => trivial)
          (Shape.leavesAll shapes)
        exact retries.weaken (Nat.le_max_left _ _)
    | false =>
        refine (isChain.retriesFirst rfl).imp (·.append (Nat.le_max_left _ _) _) ?_
        exact fun subscripted => ⟨rfl, subscripted.2.append (Nat.le_max_left _ _) _⟩
  retriesLast := fun _ => by
    simp only [Shape.leaves_node, Shape.leavesAll_cons]
    cases unsubscripted with
    | true =>
        have retries := (isChain.last rfl).retries_bracket (by decide) (fun _ => rfl)
          (Shape.leavesAll shapes)
        exact retries.weaken (Nat.le_max_left _ _)
    | false => exact (isChain.retriesLast rfl).append (Nat.le_max_left _ _) _

/-- A chain that is found under a weaker assumption. -/
theorem gives_chainFrom_retry {weaker : Assigned} {shape : Shape} {lexed : Lexed}
    {stage : Stage lexed} (gives : Gives (chain nested assigned) stage (.retry weaker) [])
    (found : ∀ after, Adds stage [] after → Gives (nested.chainFrom weaker) after true [shape]) :
    Gives (nested.chainFrom assigned) stage true [shape] := by
  rw [Nested.chainFrom]
  refine gives.andThen fun after adds => ?_
  exact (found after adds).mono fun _ last holds => ⟨holds.1, adds.trans holds.2⟩

/-- A chain is read under the right assumption in the end. -/
theorem reads (isChain : IsChain nested levels unlinked unsubscripted shape) (target : Bool) :
    Reads (member nested target) levels (shape target) (Looser 14) := by
  intro lexed stage left rest looser deep
  have noLink := isLink_eq_false looser
  have plain {stage : Stage lexed} (rest : stage.rest = (shape false).leaves ++ left)
      (deep : stage.place.depth + levels ≤ Builder.maxDepth) :
      Gives (nested.chainFrom .nothing) stage true [shape false] :=
    gives_chainFrom (isChain.nothing.found rest trivial noLink deep)
  cases target with
  | false => exact plain rest deep
  | true =>
      cases unlinked with
      | true => exact gives_chainFrom ((isChain.first rfl).found rest trivial noLink deep)
      | false =>
          have rest' := rest
          rw [isChain.leaves] at rest'
          have again {middle : Stage lexed} (adds : Adds stage [] middle) :
              middle.rest = (shape false).leaves ++ left ∧
                middle.place.depth + levels ≤ Builder.maxDepth :=
            ⟨adds.left rest', by rw [adds.later.place]; exact deep⟩
          have last (subscripted : unsubscripted = false) (middle : Stage lexed)
              (adds : Adds stage [] middle) :
              Gives (nested.chainFrom .nothing) middle true [shape true] := by
            rw [isChain.untargeted subscripted]
            exact plain (again adds).1 (again adds).2
          rcases isChain.retriesFirst rfl with retries | ⟨subscripted, retries⟩
          · refine gives_chainFrom_retry (retries stage left rest' deep) fun middle adds => ?_
            obtain ⟨rest'', deep'⟩ := again adds
            cases unsubscripted with
            | true =>
                refine gives_chainFrom ((isChain.lastTarget rfl rfl).found ?_ noLink noLink deep')
                rw [isChain.leaves]
                exact rest''
            | false =>
                refine gives_chainFrom_retry (isChain.retriesLast rfl middle left rest'' deep')
                  fun again adds' => last rfl again (adds.trans adds')
          · exact gives_chainFrom_retry (retries stage left rest' deep) (last subscripted)

end IsChain

end Grammar
end StarlarkSyntax
