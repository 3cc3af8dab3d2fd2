import StarlarkSyntax.Grammar.Statement
import StarlarkSyntax.Proofs.Print.Program
import StarlarkSyntax.Proofs.Print.Read
/-!
# Reading simple statements

A simple statement is read where its tokens come next, with the end of its line after them. An
assignment is read as an expression first, and from the beginning once the `=` comes; so is every
target of it but the first.
-/

set_option autoImplicit false

namespace StarlarkSyntax

open Layout (Piece)
open Stage (Inside Adds)

/-- No semicolon came right before, and every indent began a block. -/
structure Place.Settled (place : Place) : Prop where
  onOwnLine : place.scopes.current.afterSemicolon = false
  noStray : place.strayIndents = 0

namespace Grammar

variable {lexed : Lexed} {stage start : Stage lexed} {left : List Piece} {made : List Shape}
  {marker : Marker}

/-! ## The end of a statement -/

theorem reaches_setAfterSemicolon {post : Unit → Stage lexed → Prop}
    (settled : stage.place.Settled) (holds : post () stage) :
    Reaches (setAfterSemicolon false) stage post := by
  have same : Scopes.setAfterSemicolon false stage.parser.scopes = stage.parser.scopes := by
    show Scopes.mk (Scope.mk _ _ false) _ = _
    rw [← settled.onOwnLine]
    rfl
  refine ⟨(), stage, ?_, holds⟩
  show some ((), Parser.mk _ (Scopes.setAfterSemicolon false stage.parser.scopes) _ _) = _
  rw [same]

theorem gives_endOfStatement (settled : stage.place.Settled)
    (rest : stage.rest = Layout.mark .statementBreak :: left) :
    Gives endOfStatement stage () [.token (Layout.mark .statementBreak)] := by
  refine Reaches.bind (reaches_matches rest rfl fun after adds _ => ?_)
  exact reaches_setAfterSemicolon (by rw [adds.later.place]; exact settled) ⟨rfl, adds⟩

/-- The end of a statement in which something has been read already. -/
theorem reaches_statementEnd (settled : start.place.Settled) {kind : NodeKind}
    (inside : Inside start marker made stage) (rest : stage.rest = Layout.mark .statementBreak :: left) :
    Reaches (do endOfStatement; done marker kind) stage fun answer after =>
      answer = () ∧ Adds start [.node kind none (made ++ [.token (Layout.mark .statementBreak)])] after :=
  (gives_endOfStatement (by rw [inside.later.place]; exact settled) rest).andThen fun _ adds =>
    reaches_done (inside.adds adds) fun _ adds _ => ⟨rfl, adds⟩

/-- A token that goes on with nothing and begins nothing ends a value. -/
theorem endsItems_of_ends (kind : Kind) (ends : ∀ next?, continuation (some kind) next? = 0)
    (begins : beginning kind = 0) (noComma : kind ≠ .comma) (text : List Char) (left : List Piece) :
    EndsItems 1 ((kind, text) :: left) where
  looser := by
    rw [Looser, nextKind_cons, ends]
    exact Nat.one_pos
  noComma := fun same => noComma (Option.some.inj same)
  absent := fun kind' same => by
    cases Option.some.inj same
    refine ⟨begins, fun star => ?_⟩
    have := ends none
    rw [show kind = _ from star] at this
    cases this

theorem ends_statementBreak (left : List Piece) :
    EndsItems 1 (Layout.mark .statementBreak :: left) :=
  endsItems_of_ends .statementBreak (fun _ => rfl) rfl nofun _ left

theorem ends_equals (left : List Piece) : EndsItems 1 (spelled .equals :: left) :=
  endsItems_of_ends .equals (fun _ => rfl) rfl nofun _ left

theorem ends_compoundAssign (operator : Operator) (left : List Piece) :
    EndsItems 1 (spelled (.compoundAssign operator) :: left) :=
  endsItems_of_ends (.compoundAssign operator) (fun _ => rfl) rfl nofun _ left

theorem ends_colon (left : List Piece) : EndsItems 1 (spelled .colon :: left) :=
  endsItems_of_ends .colon (fun _ => rfl) rfl nofun _ left

/-- A value is read where a sign that assigns, or the end of the line, follows. -/
theorem reads_value (expr : Expr) (target : Bool) (deep : expr.nesting .alone ≤ Builder.maxDepth) :
    Reads (tuple nested target) (expr.nesting .alone) (expr.shape target .alone) (EndsItems 1) :=
  expr.readable.readIn .alone Builder.maxDepth target deep

/-! ## Statements of one word, and `return` -/

theorem gives_single (settled : stage.place.Settled) (word : Lone)
    (rest : stage.rest = (SimpleStmt.single word).shape.leaves ++ left) :
    Gives simpleStatement stage () [(SimpleStmt.single word).shape] := by
  have chosen : Gives (wordStatement word.kind) stage () [(SimpleStmt.single word).shape] := by
    refine Reaches.bind (reaches_mark fun marker marked inside same => ?_)
    refine Reaches.bind (reaches_advance (same.trans rest) fun passed adds rest => ?_)
    exact reaches_statementEnd settled (inside.adds adds) rest
  refine Reaches.bind (reaches_current? rest ?_)
  cases word <;> exact chosen

theorem gives_returning (settled : stage.place.Settled) (value? : Option Expr)
    (rest : stage.rest = (SimpleStmt.returning value?).shape.leaves ++ left)
    (deep : stage.place.depth + (SimpleStmt.returning value?).nesting ≤ Builder.maxDepth) :
    Gives simpleStatement stage () [(SimpleStmt.returning value?).shape] := by
  refine Reaches.bind (reaches_current? rest ?_)
  refine Reaches.bind (reaches_mark fun marker marked inside same => ?_)
  refine Reaches.bind (reaches_advance (same.trans rest) fun passed adds rest => ?_)
  have inside := inside.adds adds
  cases value? with
  | none =>
      refine Reaches.bind (reaches_atEnd rest rfl ?_)
      refine Reaches.bind (reaches_isAtAny rest rfl ?_)
      exact reaches_statementEnd settled inside rest
  | some value =>
      have deep : stage.place.depth + value.nesting .alone ≤ Builder.maxDepth := by
        simpa [SimpleStmt.nesting, most] using deep
      have starts := value.starts false .alone
      have rest : passed.rest = (value.shape false .alone).leaves ++
          Layout.mark .statementBreak :: left := by simpa using rest
      refine Reaches.bind (reaches_atEnd rest (starts.isEmpty _) ?_)
      refine Reaches.bind (reaches_isAtAny rest (starts.any (by decide) _) ?_)
      refine (reads_value value false (by omega)).require rest (ends_statementBreak left)
        (by rw [inside.later.place]; exact deep) fun read adds rest => ?_
      exact reaches_statementEnd settled (inside.adds adds) rest

/-! ## Expressions and assignments -/

/-- What begins an expression begins an expression statement. -/
theorem reaches_simpleStatement {rank : Nat} {leaves : List Piece} (starts : Starts rank leaves)
    (pos : 0 < rank) (rest : stage.rest = leaves ++ left) {post : Unit → Stage lexed → Prop}
    (reached : Reaches expressionStatement stage post) : Reaches simpleStatement stage post := by
  obtain ⟨piece, more, rfl, begins, -⟩ := starts
  refine Reaches.bind (reaches_current? rest ?_)
  rw [List.cons_append, nextKind_cons]
  generalize piece.1 = kind at begins
  cases kind with
  | reserved word => cases word <;> first | exact reached | exact absurd begins (Nat.not_le.2 pos)
  | _ => exact reached

theorem gives_expression (settled : stage.place.Settled) (value : Expr)
    (rest : stage.rest = (SimpleStmt.expression value).shape.leaves ++ left)
    (deep : stage.place.depth + (SimpleStmt.expression value).nesting ≤ Builder.maxDepth) :
    Gives simpleStatement stage () [(SimpleStmt.expression value).shape] := by
  have rest : stage.rest = (value.shape false .alone).leaves ++
      Layout.mark .statementBreak :: left := by
    simpa [SimpleStmt.shape, SimpleStmt.parts] using rest
  refine reaches_simpleStatement (value.starts false .alone) Nat.one_pos rest ?_
  refine Reaches.bind (reaches_mark fun marker marked inside same => ?_)
  rw [SimpleStmt.nesting] at deep
  refine (reads_value value false (by omega)).bind (same.trans rest) (ends_statementBreak left)
    (by rw [inside.later.place]; exact deep) fun read adds rest => ?_
  refine Reaches.bind (reaches_current? rest ?_)
  exact reaches_statementEnd settled (inside.adds adds) rest

theorem gives_augmented (settled : stage.place.Settled) (target : Expr) (operator : Operator)
    (joined : operator.hasCompoundForm = true) (value : Expr)
    (rest : stage.rest = (SimpleStmt.augmented target operator joined value).shape.leaves ++ left)
    (deep : stage.place.depth + (SimpleStmt.augmented target operator joined value).nesting ≤
      Builder.maxDepth) :
    Gives simpleStatement stage () [(SimpleStmt.augmented target operator joined value).shape] := by
  have rest : stage.rest = (target.shape false .alone).leaves ++ spelled (.compoundAssign operator) ::
      ((value.shape false .alone).leaves ++ Layout.mark .statementBreak :: left) := by
    simpa [SimpleStmt.shape, SimpleStmt.parts] using rest
  rw [SimpleStmt.nesting] at deep
  refine reaches_simpleStatement (target.starts false .alone) Nat.one_pos rest ?_
  refine Reaches.bind (reaches_mark fun marker marked inside same => ?_)
  refine (reads_value target false (by omega)).bind (same.trans rest) (ends_compoundAssign _ _)
    (by rw [inside.later.place]; omega) fun read adds rest => ?_
  have inside := inside.adds adds
  refine Reaches.bind (reaches_current? rest ?_)
  refine Reaches.bind (reaches_advance rest fun passed adds rest => ?_)
  have inside := inside.adds adds
  refine (reads_value value false (by omega)).require rest (ends_statementBreak left)
    (by rw [inside.later.place]; omega) fun read adds rest => ?_
  exact reaches_statementEnd settled (inside.adds adds) rest

/-- The rule for what stands after a `=`: another target with its own `=`, or the value. -/
def nextTarget : ParseM Bool := do
  let value ← mark
  if !(← expression) then
    drop value
    missing expectedExpression
    pure false
  else if !(← isAt .equals) then
    drop value
    pure false
  else
    rollback value
    targetExpression
    matches? .equals

/-- Targets with the sign after each of them. -/
def withEquals (targets : List Expr) : List Shape :=
  targets.flatMap fun target => [target.shape true .alone, .ofKind .equals]

/-- What is written as a value and is a target is read once more, as a target. -/
theorem gives_nextTarget (target : Expr)
    (rest : stage.rest = (target.shape true .alone).leaves ++ spelled .equals :: left)
    (deep : stage.place.depth + target.nesting .alone ≤ Builder.maxDepth) :
    Gives nextTarget stage true [target.shape true .alone, .ofKind .equals] := by
  have asValue : stage.rest = (target.shape false .alone).leaves ++ spelled .equals :: left := by
    rw [target.leaves_eq false true, rest]
  refine Reaches.bind (reaches_mark fun value marked inside same => ?_)
  refine (reads_value target false (by omega)).bind (same.trans asValue) (ends_equals left)
    (by rw [inside.later.place]; exact deep) fun read adds rest' => ?_
  refine Reaches.bind (reaches_isAt rest' rfl ?_)
  refine Reaches.bind (reaches_rollback (inside.adds adds) fun again back same => ?_)
  refine (reads_value target true (by omega)).require (same.trans rest) (ends_equals left)
    (by rw [back.later.place]; exact deep) fun named adds rest => ?_
  refine reaches_matches rest rfl fun after adds' _ => ⟨rfl, ?_⟩
  simpa [Shape.ofKind] using (back.trans adds).trans adds'

variable {holds : Place → Prop} {value : Shape}

theorem gives_nextTarget_value (reads : ReadsWhere holds expression value (EndsItems 1))
    (rest : stage.rest = value.leaves ++ Layout.mark .statementBreak :: left)
    (here : holds stage.place) : Gives nextTarget stage false [value] := by
  refine Reaches.bind (reaches_mark fun marker marked inside same => ?_)
  refine reads.bind (same.trans rest) (ends_statementBreak left)
    (by rw [inside.later.place]; exact here) fun read adds rest => ?_
  refine Reaches.bind (reaches_isAt rest rfl ?_)
  refine Reaches.bind (reaches_drop (inside.adds adds) fun after adds _ => ?_)
  exact reaches_pure ⟨rfl, adds⟩

/-- The other targets of an assignment and its value. -/
theorem gives_nextTargets (others : List Expr)
    (reads : ReadsWhere holds expression value (EndsItems 1))
    (rest : stage.rest = Shape.leavesAll (withEquals others ++ [value]) ++
      Layout.mark .statementBreak :: left) (here : holds stage.place)
    (deep : ∀ target ∈ others, stage.place.depth + target.nesting .alone ≤ Builder.maxDepth) :
    Gives (repeatWhile nextTarget) stage () (withEquals others ++ [value]) := by
  have rest : stage.rest = Shape.leavesAll (withEquals others) ++
      (value.leaves ++ Layout.mark .statementBreak :: left) := by
    simpa using rest
  have each : ∀ target ∈ others, ∀ (here : Stage lexed) left, here.place = stage.place →
      here.rest = Shape.leavesAll [target.shape true .alone, .ofKind .equals] ++ left → True →
      Gives nextTarget here true [target.shape true .alone, .ofKind .equals] :=
    fun target mem here left same rest _ => gives_nextTarget target (by simpa using rest)
      (by rw [same]; exact deep target mem)
  exact gives_repeatWhile_append others rfl rest (fun _ _ _ => by trivial) (by trivial) each
    fun last same rest => gives_repeatWhile_end (gives_nextTarget_value reads rest
      (by rw [same]; exact here))

theorem gives_targetsAndValue (first : Expr) (others : List Expr)
    (reads : ReadsWhere holds expression value (EndsItems 1))
    (rest : stage.rest = Shape.leavesAll (withEquals (first :: others) ++ [value]) ++
      Layout.mark .statementBreak :: left) (here : holds stage.place)
    (deep : ∀ target ∈ first :: others,
      stage.place.depth + target.nesting .alone ≤ Builder.maxDepth) :
    Gives assignment stage () (withEquals (first :: others) ++ [value]) := by
  have deepFirst := deep first (by simp)
  have rest : stage.rest = (first.shape true .alone).leaves ++ spelled .equals ::
      (Shape.leavesAll (withEquals others ++ [value]) ++
        Layout.mark .statementBreak :: left) := by simpa [withEquals] using rest
  refine (reads_value first true (by omega)).require rest (ends_equals _) deepFirst
    fun named adds rest => ?_
  refine Reaches.bind (reaches_expect rest rfl fun passed adds' rest => ?_)
  have adds := adds.trans adds'
  refine (gives_nextTargets others reads rest (by rw [adds.later.place]; exact here)
    fun target mem => ?_).mono fun _ after holds => ⟨rfl, ?_⟩
  · rw [adds.later.place]
    exact deep target (List.mem_cons_of_mem _ mem)
  · simpa [withEquals, Shape.ofKind] using adds.trans holds.2

/-- A value is assigned that is read at this place. -/
theorem gives_assigned (settled : stage.place.Settled) (first : Expr) (others : List Expr)
    (reads : ReadsWhere holds expression value (EndsItems 1))
    (rest : stage.rest = Shape.leavesAll (withEquals (first :: others) ++ [value]) ++
      Layout.mark .statementBreak :: left) (here : holds stage.place)
    (deep : ∀ target ∈ first :: others,
      stage.place.depth + target.nesting .alone ≤ Builder.maxDepth) :
    Gives simpleStatement stage () [.node .assignmentStatement none
      (withEquals (first :: others) ++ [value] ++ [.token (Layout.mark .statementBreak)])] := by
  have asValue : stage.rest = (first.shape false .alone).leaves ++ spelled .equals ::
      (Shape.leavesAll (withEquals others ++ [value]) ++
        Layout.mark .statementBreak :: left) := by
    rw [first.leaves_eq false true]
    simpa [withEquals] using rest
  have deepFirst := deep first (by simp)
  refine reaches_simpleStatement (first.starts false .alone) Nat.one_pos asValue ?_
  refine Reaches.bind (reaches_mark fun marker marked inside same => ?_)
  refine (reads_value first false (by omega)).bind (same.trans asValue) (ends_equals _)
    (by rw [inside.later.place]; exact deepFirst) fun read adds rest' => ?_
  refine Reaches.bind (reaches_current? rest' ?_)
  refine Reaches.bind (reaches_rollback (inside.adds adds) fun again back same => ?_)
  refine Reaches.bind (reaches_mark fun marker marked inside same' => ?_)
  have place : marked.place = stage.place := inside.later.place.trans back.later.place
  have rest := (same'.trans same).trans rest
  refine (gives_targetsAndValue first others reads rest (by rw [place]; exact here)
    (by rw [place]; exact deep)).bind rest fun assigned adds rest => ?_
  refine (reaches_statementEnd (by rw [back.later.place]; exact settled) (inside.adds adds) rest).mono
    fun _ after holds => ⟨rfl, back.trans holds.2⟩

theorem gives_assignment (settled : stage.place.Settled) (first : Expr) (others : List Expr)
    (value : Expr)
    (rest : stage.rest = (SimpleStmt.assignment first others value).shape.leaves ++ left)
    (deep : stage.place.depth + (SimpleStmt.assignment first others value).nesting ≤
      Builder.maxDepth) :
    Gives simpleStatement stage () [(SimpleStmt.assignment first others value).shape] := by
  have rest : stage.rest = Shape.leavesAll (withEquals (first :: others) ++
      [value.shape false .alone]) ++ Layout.mark .statementBreak :: left := by
    simpa [SimpleStmt.shape, SimpleStmt.parts, withEquals] using rest
  have deep (part : Expr) (mem : part ∈ first :: others ++ [value]) :
      stage.place.depth + part.nesting .alone ≤ Builder.maxDepth :=
    Nat.le_trans (Nat.add_le_add_left (le_most (List.mem_map_of_mem mem)) _) deep
  have deepValue := deep value (by simp)
  have reads := reads_iff.1 (reads_value value false (by omega))
  exact gives_assigned settled first others reads rest deepValue fun target mem =>
    deep target (List.mem_append_left _ mem)

/-! ## `load` -/

theorem gives_loadString (quoted : Quoted) (rest : stage.rest = quoted.shape.leaves ++ left) :
    Gives loadString stage () [quoted.shape] :=
  Reaches.bind (reaches_isAt rest rfl (gives_tokenNode rest .stringLiteralExpression))

theorem gives_loadValue (loaded : Loaded) (rest : stage.rest = loaded.shape.leaves ++ left) :
    Gives loadValue stage () [loaded.shape] := by
  refine Reaches.bind (reaches_mark fun marker marked inside same => ?_)
  cases loaded with
  | same symbol =>
      refine Reaches.bind (reaches_matches_not (same.trans rest) rfl ?_)
      refine (gives_loadString symbol (same.trans rest)).andThen fun read adds => ?_
      exact reaches_done (inside.adds adds) fun after adds _ => ⟨rfl, adds⟩
  | renamed name symbol =>
      refine Reaches.bind (reaches_matches (same.trans rest) rfl fun named adds rest => ?_)
      have inside := inside.adds adds
      refine Reaches.bind (reaches_matches rest rfl fun passed adds rest => ?_)
      have inside := inside.adds adds
      refine (gives_loadString symbol rest).andThen fun read adds => ?_
      exact reaches_done (inside.adds adds) fun after adds _ => ⟨rfl, adds⟩

/-- The rule for what comes next in the parentheses of a `load`. -/
def nextLoaded : ParseM Bool := do
  if ← isAt rpar then pure false
  else if !(← matches? .comma) then
    missing "expected ',' or ')'"
    pure false
  else if ← isAt rpar then pure false
  else
    loadValue
    pure true

theorem gives_nextLoaded (loaded : Loaded)
    (rest : stage.rest = Shape.leavesAll [.ofKind .comma, loaded.shape] ++ left) :
    Gives nextLoaded stage true [.ofKind .comma, loaded.shape] := by
  have rest : stage.rest = spelled .comma :: (loaded.shape.leaves ++ left) := by simpa using rest
  refine Reaches.bind (reaches_isAt rest rfl ?_)
  refine Reaches.bind (reaches_matches rest rfl fun middle adds rest => ?_)
  refine Reaches.bind (reaches_isAt rest (by cases loaded <;> rfl) ?_)
  refine (gives_loadValue loaded rest).andThen fun after adds' => reaches_pure ⟨rfl, ?_⟩
  exact adds.trans adds'

theorem gives_loading (settled : stage.place.Settled) (module : Quoted) (values : List Loaded)
    (rest : stage.rest = (SimpleStmt.loading module values).shape.leaves ++ left) :
    Gives simpleStatement stage () [(SimpleStmt.loading module values).shape] := by
  have rest : stage.rest = spelled (.reserved .loadWord) :: spelled lpar :: (module.shape.leaves ++
      (Shape.leavesAll (values.flatMap fun value => [.ofKind .comma, value.shape]) ++
        spelled rpar :: Layout.mark .statementBreak :: left)) := by
    simpa [SimpleStmt.shape, SimpleStmt.parts, Shape.withCommas, List.flatMap_map] using rest
  refine Reaches.bind (reaches_current? rest ?_)
  refine Reaches.bind (reaches_mark fun marker marked inside same => ?_)
  refine Reaches.bind (reaches_advance (same.trans rest) fun passed adds rest => ?_)
  have inside := inside.adds adds
  refine Reaches.bind (Reaches.bind (reaches_matches rest rfl fun opened adds rest => ?_))
  have inside := inside.adds adds
  refine Reaches.bind (reaches_isAt rest rfl ?_)
  refine (gives_loadString module rest).bindShape rest fun read adds rest => ?_
  have inside := inside.adds adds
  have gives : Gives (repeatWhile nextLoaded) read ()
      (values.flatMap fun value => [.ofKind .comma, value.shape]) :=
    gives_repeatWhile values rfl rest (fun _ _ _ => looser_comma Nat.one_pos _)
      (looser_closing Nat.one_pos .parenthesis _)
      (fun value _ stage left _ rest _ => gives_nextLoaded value rest)
      (fun stage _ rest => Reaches.bind (reaches_isAt rest rfl (reaches_pure ⟨rfl, .refl stage⟩)))
  refine gives.bind rest fun middle adds rest => ?_
  have inside := inside.adds adds
  refine Reaches.bind (reaches_expect rest rfl fun closed adds rest => reaches_pure ?_)
  have inside := inside.adds adds
  refine (reaches_statementEnd settled inside rest).mono fun _ after holds => ⟨rfl, ?_⟩
  simpa [SimpleStmt.shape, SimpleStmt.kind, SimpleStmt.parts, Shape.withCommas, List.flatMap_map,
    Shape.ofKind] using holds.2

/-! ## All simple statements -/

/-- A simple statement is read, if it is not nested too deeply. -/
theorem gives_simpleStatement (settled : stage.place.Settled) (statement : SimpleStmt)
    (rest : stage.rest = statement.shape.leaves ++ left)
    (deep : stage.place.depth + statement.nesting ≤ Builder.maxDepth) :
    Gives simpleStatement stage () [statement.shape] := by
  cases statement with
  | single word => exact gives_single settled word rest
  | returning value? => exact gives_returning settled value? rest deep
  | loading module values => exact gives_loading settled module values rest
  | expression value => exact gives_expression settled value rest deep
  | assignment first others value => exact gives_assignment settled first others value rest deep
  | augmented target operator joined value =>
      exact gives_augmented settled target operator joined value rest deep

end Grammar
end StarlarkSyntax
