import StarlarkSyntax.Proofs.Print.Ahead
import StarlarkSyntax.Proofs.Print.Induction
/-!
# What is printed is sound

The shapes of expressions have no messages, and their tokens stand alone and are no layout. Brackets
are closed where they were opened, so that a look ahead for the colon of a slice passes over the
tokens of an expression (`Sound`). What stands in brackets may have colons of its own; it is passed
over only inside brackets (`Sound true`). An expression begins with a token that begins nothing looser
(`Expr.starts`).
-/

set_option autoImplicit false

namespace StarlarkSyntax

open Layout (Piece)
open Grammar Shape

/-! ## Looking ahead for slices -/

/-- What a token shows when a slice is looked for: the answer, or the brackets and the lambdas that are
open after it. -/
def passColon (depth lambdas : Nat) : Kind → Except Bool (Nat × Nat)
  | .statementBreak => .error false
  | .opening _ => .ok (depth + 1, lambdas)
  | .closing _ => if depth = 0 then .error false else .ok (depth - 1, lambdas)
  | .reserved .lambdaWord => .ok (depth, if depth = 0 then lambdas + 1 else lambdas)
  | .colon =>
    if depth ≠ 0 then .ok (depth, lambdas)
    else if lambdas = 0 then .error true else .ok (depth, lambdas - 1)
  | _ => .ok (depth, lambdas)

/-- Is there a colon that makes a slice among some tokens? -/
def hasSliceColon : List Piece → Nat → Nat → Bool
  | [], _, _ => false
  | piece :: more, depth, lambdas =>
    match passColon depth lambdas piece.1 with
    | .error answer => answer
    | .ok (depth, lambdas) => hasSliceColon more depth lambdas

theorem hasSliceColon_cons {piece : Piece} {more : List Piece} {depth lambdas depth' lambdas' : Nat}
    (step : passColon depth lambdas piece.1 = .ok (depth', lambdas')) :
    hasSliceColon (piece :: more) depth lambdas = hasSliceColon more depth' lambdas' := by
  rw [hasSliceColon, step]

/-- Does a token neither open nor close brackets nor end the statement? -/
def isPlain (kind : Kind) : Bool :=
  match kind with
  | .opening _ | .closing _ | .statementBreak => false
  | _ => true

/-- A piece can be written, and is something that a grammar sees. -/
structure Writable (piece : Piece) : Prop where
  stands : StandsAlone piece
  significant : piece.1.isSignificant = true
  notLayout : piece.1.isLayout = false

/-- The tokens of some shapes can be written, and are passed over when a slice is looked for. -/
structure Sound (enclosed : Bool) (shapes : List Shape) : Prop where
  clean : allClean shapes = true
  writable : ∀ piece ∈ leavesAll shapes, Writable piece
  closed : ∀ depth, (leavesAll shapes).foldl (fun depth piece => Layout.depthAfter depth piece.1) depth =
    depth
  passed : ∀ more depth lambdas, (enclosed = true → depth ≠ 0) →
    hasSliceColon (leavesAll shapes ++ more) depth lambdas = hasSliceColon more depth lambdas

namespace Sound

variable {enclosed : Bool} {shapes shapes' : List Shape} {shape : Shape}

theorem nil (enclosed : Bool) : Sound enclosed [] :=
  ⟨rfl, nofun, fun _ => rfl, fun _ _ _ _ => rfl⟩

theorem inside (sound : Sound false shapes) (enclosed : Bool) : Sound enclosed shapes :=
  ⟨sound.clean, sound.writable, sound.closed,
    fun more depth lambdas _ => sound.passed more depth lambdas nofun⟩

theorem append (sound : Sound enclosed shapes) (sound' : Sound enclosed shapes') :
    Sound enclosed (shapes ++ shapes') where
  clean := by rw [allClean_append, sound.clean, sound'.clean]; rfl
  writable := by
    rw [leavesAll_append]
    exact List.forall_mem_append.2 ⟨sound.writable, sound'.writable⟩
  closed := fun depth => by rw [leavesAll_append, List.foldl_append, sound.closed, sound'.closed]
  passed := fun more depth lambdas inside => by
    rw [leavesAll_append, List.append_assoc, sound.passed _ _ _ inside, sound'.passed _ _ _ inside]

theorem cons (sound : Sound enclosed [shape]) (sound' : Sound enclosed shapes) :
    Sound enclosed (shape :: shapes) :=
  sound.append sound'

theorem node {kind : NodeKind} (sound : Sound enclosed shapes) :
    Sound enclosed [.node kind none shapes] where
  clean := by simp [sound.clean]
  writable := by simpa using sound.writable
  closed := by simpa using sound.closed
  passed := by simpa using sound.passed

theorem flatMap {α : Type} {items : List α} {shapes : α → List Shape}
    (sound : ∀ item ∈ items, Sound enclosed (shapes item)) :
    Sound enclosed (items.flatMap shapes) := by
  induction items with
  | nil => exact nil enclosed
  | cons item items ih =>
      exact (sound item List.mem_cons_self).append
        (ih fun item mem => sound item (List.mem_cons_of_mem _ mem))

/-- A token that is neither a bracket nor a word that takes a colon. -/
theorem token {piece : Piece} (writable : Writable piece)
    (plain : isPlain piece.1 = true) (noColon : piece.1 ≠ .colon ∨ enclosed = true)
    (noLambda : piece.1 ≠ .reserved .lambdaWord) : Sound enclosed [.token piece] where
  clean := rfl
  writable := by simpa using writable
  closed := fun depth => by
    show Layout.depthAfter depth piece.1 = depth
    unfold Layout.depthAfter
    split <;> simp_all [isPlain]
  passed := fun more depth lambdas inside => by
    refine hasSliceColon_cons ?_
    unfold passColon
    split <;> simp_all [isPlain]

end Sound

/-- Is there only one way to write a kind, and is it passed over when a slice is looked for? -/
def isNeutral (kind : Kind) : Bool :=
  match kind with
  | .reserved .lambdaWord => false
  | .reserved _ | .operator _ | .equals | .comma | .semicolon | .dot => true
  | .compoundAssign symbol => symbol.hasCompoundForm
  | _ => false

/-- Is there only one way to write a kind? -/
def isFixed : Kind → Bool
  | .compoundAssign symbol => symbol.hasCompoundForm
  | .reserved _ | .operator _ | .equals | .colon | .comma | .semicolon | .dot | .opening _
  | .closing _ => true
  | _ => false

theorem writable_spelled {kind : Kind} (fixed : isFixed kind = true) : Writable (spelled kind) := by
  cases kind with
  | reserved word => cases word <;> exact ⟨⟨_, _, rfl, rfl⟩, rfl, rfl⟩
  | operator symbol => cases symbol <;> exact ⟨⟨_, _, rfl, rfl⟩, rfl, rfl⟩
  | compoundAssign symbol =>
      cases symbol <;> first | exact ⟨⟨_, _, rfl, rfl⟩, rfl, rfl⟩ | cases fixed
  | opening delimiter | closing delimiter =>
      cases delimiter <;> exact ⟨⟨_, _, rfl, rfl⟩, rfl, rfl⟩
  | equals | colon | comma | semicolon | dot => exact ⟨⟨_, _, rfl, rfl⟩, rfl, rfl⟩
  | _ => cases fixed

namespace Sound

variable {enclosed : Bool} {shapes : List Shape}

theorem ofKind {kind : Kind} (neutral : isNeutral kind = true) :
    Sound enclosed [.ofKind kind] := by
  cases kind with
  | reserved word =>
      cases word with
      | lambdaWord => cases neutral
      | _ => exact token (writable_spelled rfl) rfl (.inl nofun) nofun
  | operator | equals | comma | semicolon | dot =>
      exact token (writable_spelled rfl) rfl (.inl nofun) nofun
  | compoundAssign symbol => exact token (writable_spelled neutral) rfl (.inl nofun) nofun
  | _ => cases neutral

theorem ofKinds {kinds : List Kind} (neutral : ∀ kind ∈ kinds, isNeutral kind = true) :
    Sound enclosed (kinds.map .ofKind) := by
  induction kinds with
  | nil => exact nil enclosed
  | cons kind kinds ih =>
      obtain ⟨first, others⟩ := List.forall_mem_cons.1 neutral
      exact .cons (.ofKind first) (ih others)

theorem colon : Sound true [.ofKind .colon] :=
  token (writable_spelled rfl) rfl (.inr rfl) nofun

theorem ofName (name : Name) : Sound enclosed [.ofName name] :=
  token ⟨name.stands, rfl, rfl⟩ rfl (.inl nofun) nofun

theorem comma : Sound enclosed [.ofKind .comma] :=
  ofKind rfl

/-- What stands in brackets. -/
theorem brackets (sound : Sound true shapes) (delimiter : Delimiter) :
    Sound enclosed (.ofKind (.opening delimiter) :: shapes ++ [.ofKind (.closing delimiter)]) := by
  refine ⟨?_, ?_, fun depth => ?_, fun more depth lambdas _ => ?_⟩
  · simp [sound.clean, Shape.ofKind]
  · intro piece mem
    simp only [leavesAll_append, leavesAll_cons, leaves_ofKind, leavesAll_nil, List.append_nil,
      List.cons_append, List.nil_append, List.mem_cons, List.mem_append, List.not_mem_nil,
      or_false] at mem
    rcases mem with rfl | mem | rfl
    · exact writable_spelled rfl
    · exact sound.writable piece mem
    · exact writable_spelled rfl
  · rw [leavesAll_append, List.foldl_append, leavesAll_cons, List.foldl_append, sound.closed]
    rfl
  · simp only [leavesAll_append, leavesAll_cons, leaves_ofKind, leavesAll_nil, List.append_nil,
      List.cons_append, List.nil_append, List.append_assoc]
    have opened : passColon depth lambdas (spelled (.opening delimiter)).1 = .ok (depth + 1, lambdas) :=
      rfl
    rw [hasSliceColon_cons opened, sound.passed _ _ _ fun _ => Nat.succ_ne_zero depth]
    exact hasSliceColon_cons rfl

/-- A lambda takes one colon for itself. -/
theorem lambda {parameters body : List Shape} (sound : Sound false parameters)
    (sound' : Sound false body) :
    Sound enclosed (.ofKind (.reserved .lambdaWord) :: parameters ++ .ofKind .colon :: body) := by
  have word : Sound true [.ofKind (.reserved .lambdaWord)] := by
    refine ⟨rfl, by simpa using writable_spelled rfl, fun _ => rfl, ?_⟩
    intro more depth lambdas inside
    refine hasSliceColon_cons ?_
    show Except.ok (depth, ite _ _ _) = _
    rw [if_neg (inside rfl)]
  have enclosed' := (word.append (sound.inside true)).append (colon.append (sound'.inside true))
  refine ⟨enclosed'.clean, enclosed'.writable, enclosed'.closed, ?_⟩
  intro more depth lambdas _
  by_cases outside : depth = 0
  · subst outside
    simp only [leavesAll_append, leavesAll_cons, leaves_ofKind, List.cons_append, List.nil_append,
      List.append_assoc]
    have word : passColon 0 lambdas (spelled (.reserved .lambdaWord)).1 = .ok (0, lambdas + 1) := rfl
    have colon : passColon 0 (lambdas + 1) (spelled .colon).1 = .ok (0, lambdas) := rfl
    rw [hasSliceColon_cons word, sound.passed _ _ _ nofun, hasSliceColon_cons colon,
      sound'.passed _ _ _ nofun]
  · exact enclosed'.passed more depth lambdas fun _ => outside

theorem withCommas (sound : ∀ shape ∈ shapes, Sound enclosed [shape]) :
    Sound enclosed (withCommas shapes) := by
  cases shapes with
  | nil => exact nil enclosed
  | cons shape shapes =>
      refine (sound shape List.mem_cons_self).append (flatMap fun next mem => ?_)
      exact comma.append (sound next (List.mem_cons_of_mem _ mem))

end Sound

/-! ## Expressions -/

namespace Expr

theorem shape_of_admits {position : Position} {expr : Expr} (admits : position.admits expr = true)
    (target : Bool) : expr.shape target position = expr.inner target position :=
  if_pos admits

theorem shape_of_not_admits {position : Position} {expr : Expr}
    (other : position.admits expr = false) (target : Bool) : expr.shape target position =
      .node .parenthesizedExpression none
        [.ofKind lpar, expr.inner target .alone, .ofKind rpar] :=
  if_neg (by rw [other]; exact Bool.false_ne_true)

/-- Parentheses make no difference to what can be written. -/
theorem sound_shape {expr : Expr} {target : Bool}
    (sound : ∀ position, Sound false [expr.inner target position]) (enclosed : Bool)
    (position : Position) : Sound enclosed [expr.shape target position] := by
  cases admits : position.admits expr with
  | true =>
      rw [shape_of_admits admits]
      exact (sound position).inside enclosed
  | false =>
      rw [shape_of_not_admits admits]
      exact .node (((sound .alone).inside true).brackets .parenthesis)

end Expr

theorem Sound.withCommas_map {α : Type} {enclosed : Bool} {items : List α} {shape : α → Shape}
    (sound : ∀ item ∈ items, Sound enclosed [shape item]) :
    Sound enclosed (Shape.withCommas (items.map shape)) := by
  refine Sound.withCommas fun shape mem => ?_
  obtain ⟨item, mem', rfl⟩ := List.mem_map.1 mem
  exact sound item mem'

/-- All expressions with parts that can be written. -/
def AllSound (parts : List Expr) : Prop :=
  ∀ part ∈ parts, ∀ enclosed target position, Sound enclosed [part.shape target position]

theorem AllSound.flatMap {α : Type} {parts : α → List Expr} {items : List α}
    (all : AllSound (items.flatMap parts)) {item : α} (mem : item ∈ items) :
    AllSound (parts item) :=
  fun part mem' => all part (List.mem_flatMap.2 ⟨item, mem, mem'⟩)

theorem Argument.sound {argument : Argument} (all : AllSound argument.parts) :
    Sound true [argument.shape] := by
  cases argument with
  | positional value =>
      simp only [shape, Position.enclose_inner]
      exact .node (all value (by simp [parts]) _ _ _)
  | named name value =>
      simp only [shape, Position.enclose_inner]
      exact .node (.cons (.ofName name) (.cons (.ofKind rfl) (all value (by simp [parts]) _ _ _)))
  | star value | doubleStar value =>
      simp only [shape, Position.enclose_inner]
      exact .node (.cons (.ofKind rfl) (all value (by simp [parts]) _ _ _))

theorem Parameter.sound {parameter : Parameter} (all : AllSound parameter.parts) :
    Sound false [parameter.shape] := by
  cases parameter with
  | mandatory name =>
      rw [shape]
      exact .node (.ofName name)
  | optional name default =>
      simp only [shape, Position.enclose_inner]
      exact .node (.cons (.ofName name) (.cons (.ofKind rfl)
        (all default (by simp [parts]) _ _ _)))
  | variadic name? =>
      rw [shape]
      refine .node (.cons (.ofKind rfl) ?_)
      cases name? with
      | none => exact .nil _
      | some name => exact .ofName name
  | keywordVariadic name =>
      rw [shape]
      exact .node (.cons (.ofKind rfl) (.ofName name))

theorem sound_partShapes {part? : Option Expr} (all : AllSound part?.toList) (enclosed marked : Bool) :
    Sound enclosed (partShapes marked part?) := by
  cases part? with
  | none =>
      rw [partShapes]
      cases marked with
      | false => exact .nil _
      | true => exact .node (.nil _)
  | some part =>
      rw [partShapes]
      exact all part (by simp) _ _ _

theorem Bounds.sound {bounds : Bounds} (all : AllSound bounds.parts) (first last : Bool) :
    Sound true (bounds.shapes first last) := by
  cases bounds with
  | pair start? stop? =>
      obtain ⟨start, stop⟩ := List.forall_mem_append.1 all
      rw [shapes]
      exact (sound_partShapes start _ _).append (.cons .colon (sound_partShapes stop _ _))
  | triple start? stop? step? =>
      obtain ⟨both, step⟩ := List.forall_mem_append.1 all
      obtain ⟨start, stop⟩ := List.forall_mem_append.1 both
      rw [shapes]
      exact ((sound_partShapes start _ _).append (.cons .colon (sound_partShapes stop _ _))).append
        (.cons .colon (sound_partShapes step _ _))

theorem SliceItem.sound {item : SliceItem} (all : AllSound item.parts) :
    Sound true [item.shape] := by
  cases item with
  | index value =>
      rw [shape]
      exact .node (all value (by simp [parts]) _ _ _)
  | bounded bounds =>
      rw [shape]
      exact .node (Bounds.sound all _ _)

theorem Entry.sound {entry : Entry} (all : AllSound entry.parts) : Sound true [entry.shape] := by
  obtain ⟨key, value⟩ := entry
  simp only [shape, Position.enclose_inner]
  exact .node (.cons (all key (by simp [parts]) _ _ _)
    (.cons .colon (all value (by simp [parts]) _ _ _)))

theorem sound_conditionShapes {conditions : List Expr} (all : AllSound conditions) :
    Sound true (conditionShapes conditions) := by
  induction conditions with
  | nil =>
      rw [conditionShapes]
      exact .nil _
  | cons condition more ih =>
      obtain ⟨first, others⟩ := List.forall_mem_cons.1 all
      cases more with
      | nil =>
          rw [conditionShapes]
          exact .cons (.ofKind rfl) (first _ _ _)
      | cons next more =>
          rw [conditionShapes]
          exact .cons (.ofKind rfl) (.cons (first _ _ _) (ih others))

theorem Clause.sound {clause : Clause} (all : AllSound clause.parts) :
    Sound true clause.shapes := by
  obtain ⟨targets, range, conditions⟩ := clause
  simp only [shapes, Position.enclose_inner]
  refine .append (.cons (.ofKind rfl) (.cons (all targets (by simp [parts]) _ _ _)
    (.cons (.ofKind rfl) (all range (by simp [parts]) _ _ _)))) ?_
  exact sound_conditionShapes fun part mem => all part (by simp [parts, mem])

/-- Every expression can be written. -/
theorem Expr.sound (expr : Expr) (enclosed target : Bool) (position : Position) :
    Sound enclosed [expr.shape target position] := by
  induction expr using Expr.induction generalizing enclosed target position with
  | step expr ih =>
  refine sound_shape (fun position => ?_) enclosed position
  have all : AllSound expr.parts := fun part mem enclosed target position =>
    ih part mem enclosed target position
  cases expr with
  | name name =>
      rw [inner]
      exact .node (.ofName name)
  | literal literal =>
      have significant : isPlain literal.kind = true ∧ literal.kind.isSignificant = true ∧
          literal.kind.isLayout = false ∧ literal.kind ≠ .colon ∧
          literal.kind ≠ .reserved .lambdaWord := by
        have := literal.literal
        revert this
        cases literal.kind with
        | int | float | string | bytes => exact fun _ => ⟨rfl, rfl, rfl, by decide, by decide⟩
        | _ => exact fun is => absurd is Bool.false_ne_true
      obtain ⟨plain, significant, notLayout, noColon, noLambda⟩ := significant
      rw [inner]
      exact .node (.token ⟨literal.stands, significant, notLayout⟩ plain (.inl noColon) noLambda)
  | dotted object name =>
      simp only [inner, Position.enclose_inner]
      exact .node (.cons (all object (by simp [parts]) _ _ _) (.cons (.ofKind rfl) (.ofName name)))
  | call function arguments =>
      simp only [inner, Position.enclose_inner]
      refine .node (.cons (all function (by simp [parts]) _ _ _) (.node (.brackets ?_ .parenthesis)))
      refine .withCommas_map fun argument mem => Argument.sound fun part mem' => ?_
      exact all part (List.mem_cons_of_mem _ (List.mem_flatMap.2 ⟨argument, mem, mem'⟩))
  | subscript object index =>
      simp only [inner, Position.enclose_inner]
      have index := all index (by simp [parts]) true false .alone
      exact .node (.cons (all object (by simp [parts]) _ _ _) (index.brackets .bracket))
  | slice object before bounds after =>
      simp only [inner, Position.enclose_inner]
      refine .node (.cons (all object (by simp [parts]) _ _ _) (.brackets (.withCommas ?_) .bracket))
      refine List.forall_mem_append.2 ⟨?_, List.forall_mem_cons.2 ⟨?_, ?_⟩⟩
      · intro shape mem
        obtain ⟨item, mem', rfl⟩ := List.mem_map.1 mem
        exact .node (all item (by simp [parts, mem']) _ _ _)
      · exact .node (Bounds.sound (fun part mem => all part (by simp [parts, mem])) _ _)
      · intro shape mem
        obtain ⟨item, mem', rfl⟩ := List.mem_map.1 mem
        refine SliceItem.sound fun part mem'' => all part ?_
        exact List.mem_append_right _ (List.mem_flatMap.2 ⟨item, mem', mem''⟩)
  | parenthesized expr =>
      simp only [inner, Position.enclose_inner]
      have expr := all expr (by simp [parts]) true target .alone
      exact .node (expr.brackets .parenthesis)
  | tuple elements =>
      cases elements with
      | nil =>
          rw [inner]
          exact .node ((Sound.nil true).brackets .parenthesis)
      | cons first others =>
          simp only [inner, Position.enclose_inner]
          refine .node (.cons (all first (by simp [parts]) _ _ _) ?_)
          split
          · exact .comma
          · exact .flatMap fun item mem => .cons .comma (all item (by simp [parts, mem]) _ _ _)
  | list elements =>
      simp only [inner, Position.enclose_inner]
      exact .node (.brackets (.withCommas_map fun element mem => all element mem _ _ _) .bracket)
  | set first others =>
      simp only [inner, Position.enclose_inner]
      refine .node (.brackets (.withCommas (List.forall_mem_cons.2 ⟨?_, ?_⟩)) .brace)
      · exact all first (by simp [parts]) _ _ _
      · intro shape mem
        obtain ⟨item, mem', rfl⟩ := List.mem_map.1 mem
        exact all item (by simp [parts, mem']) _ _ _
  | dict entries =>
      rw [inner]
      exact .node (.brackets (.withCommas_map fun entry mem => Entry.sound (all.flatMap mem)) .brace)
  | listComprehension element first others =>
      simp only [inner, Position.enclose_inner]
      have element' := all element (by simp [parts]) true target .test
      have first' : Sound true first.shapes := Clause.sound fun part mem => all part (by simp [parts, mem])
      have others' : Sound true (others.flatMap Clause.shapes) := .flatMap fun clause mem =>
        Clause.sound fun part mem' => all part
          (List.mem_append_right _ (List.mem_flatMap.2 ⟨clause, mem, mem'⟩))
      exact .node (((element'.append first').append others').brackets .bracket)
  | dictComprehension entry first others =>
      rw [inner]
      have entry' : Sound true [entry.shape] := Entry.sound fun part mem => all part (by simp [parts, mem])
      have first' : Sound true first.shapes := Clause.sound fun part mem => all part (by simp [parts, mem])
      have others' : Sound true (others.flatMap Clause.shapes) := .flatMap fun clause mem =>
        Clause.sound fun part mem' => all part
          (List.mem_append_right _ (List.mem_flatMap.2 ⟨clause, mem, mem'⟩))
      exact .node (((entry'.append first').append others').brackets .brace)
  | power left right =>
      simp only [inner, Position.enclose_inner]
      exact .node (.cons (all left (by simp [parts]) _ _ _) (.cons (.ofKind rfl)
        (all right (by simp [parts]) _ _ _)))
  | signed sign operand =>
      simp only [inner, Position.enclose_inner]
      exact .node (.cons (.ofKind (by cases sign <;> rfl)) (all operand (by simp [parts]) _ _ _))
  | negation operand =>
      simp only [inner, Position.enclose_inner]
      exact .node (.cons (.ofKind rfl) (all operand (by simp [parts]) _ _ _))
  | binary operator left right =>
      simp only [inner, Position.enclose_inner]
      exact .node (.cons (all left (by simp [parts]) _ _ _) (.append
        (.ofKinds (by cases operator <;> decide)) (all right (by simp [parts]) _ _ _)))
  | conditional value condition otherwise =>
      simp only [inner, Position.enclose_inner]
      exact .node (.cons (all value (by simp [parts]) _ _ _) (.cons (.ofKind rfl)
        (.cons (all condition (by simp [parts]) _ _ _) (.cons (.ofKind rfl)
          (all otherwise (by simp [parts]) _ _ _)))))
  | lambda parameters body =>
      simp only [inner, Position.enclose_inner]
      have list : Sound false [node .parameterList none
          (Shape.withCommas (parameters.map Parameter.shape))] := by
        refine .node (.withCommas_map fun parameter mem => Parameter.sound fun part mem' => ?_)
        exact all part (List.mem_cons_of_mem _ (List.mem_flatMap.2 ⟨parameter, mem, mem'⟩))
      exact .node (.lambda list (all body (by simp [parts]) _ _ _))

/-! ## The colon of a slice -/

/-- The colon of bounds is found. -/
theorem Bounds.hasSliceColon (bounds : Bounds) (first last : Bool) (more : List Piece) :
    hasSliceColon (leavesAll (bounds.shapes first last) ++ more) 0 0 = true := by
  have found {shapes : List Shape} (sound : Sound false shapes) (more : List Piece) :
      StarlarkSyntax.hasSliceColon (leavesAll shapes ++ spelled .colon :: more) 0 0 = true := by
    rw [sound.passed _ _ _ nofun]
    rfl
  have start (start? : Option Expr) (marked : Bool) : Sound false (partShapes marked start?) :=
    sound_partShapes (fun part _ => part.sound) _ _
  cases bounds with
  | pair start? stop? =>
      rw [shapes, leavesAll_append, List.append_assoc]
      exact found (start start? _) _
  | triple start? stop? step? =>
      rw [shapes, leavesAll_append, leavesAll_append, List.append_assoc, List.append_assoc]
      exact found (start start? _) _

/-- The colon of a slice is found behind the items that have none. -/
theorem hasSliceColon_slice (before : List Expr) (bounds : Bounds) (first last : Bool)
    (after : List Shape) (more : List Piece) :
    hasSliceColon (leavesAll (Shape.withCommas
      (before.map (fun item => .node .sliceItem none [item.shape false .test]) ++
        .node .sliceItem none (bounds.shapes first last) :: after)) ++ more) 0 0 = true := by
  have item (expr : Expr) : Sound false [.node .sliceItem none [expr.shape false .test]] :=
    .node (expr.sound _ _ _)
  cases before with
  | nil =>
      rw [List.map_nil, List.nil_append, Shape.withCommas, leavesAll_cons, leaves_node,
        List.append_assoc]
      exact bounds.hasSliceColon first last _
  | cons expr before =>
      have passed : Sound false (.node .sliceItem none [expr.shape false .test] ::
          before.flatMap fun item => [.ofKind .comma, .node .sliceItem none [item.shape false .test]]) :=
        .cons (item expr) (.flatMap fun other _ => .cons .comma (item other))
      simp only [List.map_cons, List.cons_append, Shape.withCommas, List.flatMap_append,
        List.flatMap_map, List.flatMap_cons, leavesAll_cons, leavesAll_append, List.append_assoc,
        leaves_ofKind, List.nil_append]
      have found := passed.passed (spelled .comma :: (leavesAll (bounds.shapes first last) ++
        (leavesAll (after.flatMap fun next => [.ofKind .comma, next]) ++ more))) 0 0 (by decide)
      simp only [leavesAll_cons, List.append_assoc] at found
      exact found.trans (bounds.hasSliceColon first last _)

/-! ## First tokens -/

namespace Position

/-- The loosest level of what the first token may begin. -/
def start : Position → Nat
  | targets => Tier.rank (.ladder .bitOr)
  | operand level => level.rank
  | _ => 1

theorem start_le_rank (position : Position) : position.start ≤ position.rank := by
  cases position with
  | targets | operand => exact Nat.le_refl _
  | _ => decide

theorem start_le (position : Position) : position.start ≤ Tier.primary.rank := by
  cases position with
  | operand level => exact level.rank_le
  | _ => decide

theorem start_of_admitsLambda {position : Position} (admits : position.admitsLambda = true) :
    position.start = 1 := by
  cases position <;> first | rfl | cases admits

theorem start_le_item {position : Position} (admits : position.admitsTuple = true) :
    position.start ≤ position.item.start := by
  cases position <;> first | decide | cases admits

end Position

theorem starts_of_ne {rank : Nat} {piece : Piece} {more : List Piece}
    (le : rank ≤ beginning piece.1) (other : piece.1 ≠ .identifier) : Starts rank (piece :: more) :=
  ⟨piece, more, rfl, le, fun name => absurd name other⟩

/-- What an expression begins with in a position that admits it. -/
theorem Expr.starts_inner {expr : Expr} {position : Position}
    (admits : position.admits expr = true) (target : Bool)
    (ih : ∀ part ∈ expr.parts, ∀ (target : Bool) (position : Position),
      Starts position.start (part.shape target position).leaves) :
    Starts position.start (expr.inner target position).leaves := by
  have ranked (level : Tier) : position.rank ≤ level.rank → position.start ≤ level.rank :=
    Nat.le_trans position.start_le_rank
  cases expr with
  | name name =>
      rw [inner]
      exact ⟨_, [], rfl, position.start_le, fun _ => (by decide)⟩
  | literal literal =>
      have begins : beginning literal.kind = Tier.primary.rank ∧ literal.kind ≠ .identifier := by
        have := literal.literal
        revert this
        cases literal.kind with
        | int | float | string | bytes => exact fun _ => ⟨rfl, by decide⟩
        | _ => exact fun is => absurd is Bool.false_ne_true
      rw [inner]
      exact starts_of_ne (position.start_le.trans_eq begins.1.symm) begins.2
  | dotted object name =>
      simp only [inner, Position.enclose_inner]
      have object := (ih object (by simp [parts]) false (.operand .primary)).mono position.start_le
      exact object.append (by rintro ⟨⟩)
  | call function arguments =>
      simp only [inner, Position.enclose_inner]
      exact ((ih function (by simp [parts]) _ (.operand .primary)).mono position.start_le).append
        (by rintro ⟨⟩)
  | subscript object index =>
      simp only [inner, Position.enclose_inner]
      exact ((ih object (by simp [parts]) _ (.operand .primary)).mono position.start_le).append
        (by rintro ⟨⟩)
  | slice object before bounds after =>
      simp only [inner, Position.enclose_inner]
      exact ((ih object (by simp [parts]) _ (.operand .primary)).mono position.start_le).append
        (by rintro ⟨⟩)
  | parenthesized | list | set | dict | listComprehension | dictComprehension =>
      rw [inner]
      exact starts_of_ne position.start_le (by decide)
  | tuple elements =>
      cases elements with
      | nil =>
          rw [inner]
          exact starts_of_ne position.start_le (by decide)
      | cons first others =>
          simp only [inner, Position.enclose_inner]
          refine ((ih first (by simp [parts]) target position.item).mono
            (Position.start_le_item admits)).append ?_
          split
          · rintro ⟨⟩
          · cases others <;> rintro ⟨⟩
  | power left right =>
      simp only [inner, Position.enclose_inner]
      exact ((ih left (by simp [parts]) _ (.operand .primary)).mono position.start_le).append
        (by rintro ⟨⟩)
  | signed sign operand =>
      rw [inner]
      have begins : beginning sign.kind = Tier.sign.rank ∧ sign.kind ≠ .identifier := by
        cases sign <;> exact ⟨rfl, by decide⟩
      exact starts_of_ne ((ranked .sign (of_decide_eq_true admits)).trans_eq begins.1.symm)
        begins.2
  | negation operand =>
      rw [inner]
      exact starts_of_ne (ranked .negation (of_decide_eq_true admits)) (by decide)
  | binary operator left right =>
      simp only [inner, Position.enclose_inner]
      have left := ih left (by simp [parts]) target (.operand (.ladder operator.level))
      refine (left.mono (ranked (.ladder operator.level) (of_decide_eq_true admits))).append ?_
      cases operator <;> rintro ⟨⟩
  | conditional value condition otherwise =>
      simp only [inner, Position.enclose_inner]
      have value := ih value (by simp [parts]) target (.operand (.ladder .disjunction))
      have le : position.rank ≤ 1 := of_decide_eq_true admits
      exact (value.mono (position.start_le_rank.trans (le.trans (by decide)))).append
        (by rintro ⟨⟩)
  | lambda parameters body =>
      rw [inner]
      refine starts_of_ne ?_ (by decide)
      rw [Position.start_of_admitsLambda admits]
      exact Nat.le_refl 1

/-- What an expression begins with. -/
theorem Expr.starts (expr : Expr) (target : Bool) (position : Position) :
    Starts position.start (expr.shape target position).leaves := by
  induction expr using Expr.induction generalizing target position with
  | step expr ih =>
  cases admits : position.admits expr with
  | true =>
      rw [shape_of_admits admits]
      exact starts_inner admits target ih
  | false =>
      rw [shape_of_not_admits admits]
      exact starts_of_ne position.start_le nofun

end StarlarkSyntax
