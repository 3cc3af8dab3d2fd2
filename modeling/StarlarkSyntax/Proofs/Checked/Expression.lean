import StarlarkSyntax.Proofs.Checked.Display
/-!
# Full expressions with their assertions

The checked rules for the productions are filled in as the rules are, level by level. At each level
they do what the rules do if they do so one level deeper (`mirrored_nestedFor`), and there is always a
level to leave when a rule has ended.
-/

set_option autoImplicit false

namespace StarlarkSyntax.Checked

open Grammar (isAt isAtWord advance matches? missing Production expectedExpression)

/-- An operation, or one that is chosen by a condition. -/
def choice (nested : Nested) (target : Bool) : CheckedM Bool := do
  let expression ← mark
  if !(← operation nested target) then
    drop expression
    pure false
  else if !(← isAtWord .ifWord) then
    drop expression
    pure true
  else
    let condition ← mark
    advance
    let found ← operation nested target
    if found && (← isAt .colon) then
      rollback condition
      drop expression
      pure true
    else
      if !found then missing expectedExpression
      else if ← matches? (.reserved .elseWord) then
        require expectedExpression (test nested target)
      else missing "expected 'else'"
      drop condition
      done expression .conditionalExpression
      pure true

/-- A lambda, or an operation that may be chosen by a condition. -/
def conditional (nested : Nested) (target : Bool) : CheckedM Bool := do
  if ← isAtWord .lambdaWord then lambda nested (test nested false) else choice nested target

/-- The checked rule for a production, when those one level deeper are given. -/
def production (nested : Nested) : Production → CheckedM Bool
  | .test target => conditional nested target
  | .display delimiter target => do
    display nested delimiter target
    pure true
  | .arguments => do
    arguments nested
    pure true
  | .negation target => prefixed (negation nested target)
  | .signed target => prefixed (unary nested target)
  | .exponent target => unary nested target

/-- The checked rules for the productions, nested at most so many levels. -/
def nestedFor : Nat → Nested
  | 0, _ => nest unending
  | levels + 1, rule => nest (production (nestedFor levels) rule)

/-- The checked rules for the productions, nested as deep as is ever allowed. -/
def nested : Nested :=
  nestedFor Builder.maxDepth

/-- Full expressions separated by commas. -/
def expression : CheckedM Bool :=
  tuple nested false

/-- Full expressions separated by commas, which are assigned to and have to be there. -/
def targetExpression : CheckedM Unit :=
  require expectedExpression (tuple nested true)

section Rules

variable {nested : Nested} {plain : Grammar.Nested} {here : Scopes → Nat → Prop} {depth : Nat}

theorem mirrors_choice (mirrored : Mirrored nested plain depth) (target : Bool) :
    Mirrors here depth (choice nested target) (Grammar.choice plain target) := by
  intro base marks watched live
  have operation : Mirrors here depth _ _ := mirrors_operation mirrored target
  refine (matches_mark live).bind ?_
  rintro expression _ watched ⟨rfl, made, live, -⟩
  refine operation.bind live fun _ watched live => .ite (fun _ => ?_) fun _ => ?_
  · exact (matches_drop live made).answers _
  refine (mirrors_isAtWord _).bind live fun _ watched live => .ite (fun _ => ?_) fun _ => ?_
  · exact (matches_drop live made).answers _
  refine (matches_mark live).bind ?_
  rintro condition _ watched ⟨rfl, made', live, -⟩
  have close (watched : Watched)
      (live : Live here base depth (condition :: expression :: marks) watched) : Matches (do
        drop condition
        done expression .conditionalExpression
        pure true) (do
        Grammar.drop condition.marker
        Grammar.done expression.marker .conditionalExpression
        pure true) watched (Agrees here base depth marks) := by
    refine (matches_drop live made').bind fun _ _ watched live => ?_
    exact (matches_done live made _).answers _
  refine mirrors_advance.bind live fun _ watched live => ?_
  refine operation.bind live fun found watched live => ?_
  refine (mirrors_isAt _).bind live fun _ watched live => .ite (fun _ => ?_) fun _ => ?_
  · exact (matches_rollback live made').bind fun _ _ _ live => (matches_drop live made).answers _
  refine .ite (fun _ => ?_) fun _ => ?_
  · exact (mirrors_missing _).bind live fun _ watched live => close watched live
  refine (mirrors_matches? _).bind live fun _ watched live => .ite (fun _ => ?_) fun _ => ?_
  · exact (mirrors_require _ (mirrored.test target)).bind live fun _ watched live =>
      close watched live
  · exact (mirrors_missing _).bind live fun _ watched live => close watched live

theorem mirrors_conditional (mirrored : Mirrored nested plain depth) (target : Bool) :
    Mirrors here depth (conditional nested target) (Grammar.conditional plain target) :=
  .choose (mirrors_lambda mirrored (mirrored.test false)) (mirrors_choice mirrored target)

/-! ## Nesting -/

theorem mirrors_nest {checked : CheckedM Bool} {rule : ParseM Bool}
    (mirrors : depth < Builder.maxDepth → Mirrors here (depth + 1) checked rule) :
    Mirrors here depth (nest checked) (Grammar.nest rule) := by
  intro base marks watched live
  exact matches_nest live fun shallow next _ live => mirrors shallow _ marks next live

theorem mirrorsAt_nest {kind : Kind} {checked : CheckedM Bool} {rule : ParseM Bool}
    (mirrors : depth < Builder.maxDepth → MirrorsAt here (depth + 1) kind checked rule) :
    MirrorsAt here depth kind (nest checked) (Grammar.nest rule) := by
  intro base marks watched live seen
  exact matches_nest live fun shallow next same live =>
    mirrors shallow _ marks next live (same ▸ seen)

/-- The checked rules for the productions do what the rules do where those that they are made of do
so one level deeper. -/
theorem Mirrored.nest
    (mirrored : depth < Builder.maxDepth → Mirrored nested plain (depth + 1)) :
    Mirrored (fun rule => Checked.nest (production nested rule))
      (fun rule => Grammar.nest (Grammar.production plain rule)) depth where
  follows := .nest fun shallow => (mirrored shallow).follows
  test target := mirrors_nest fun shallow => mirrors_conditional (mirrored shallow) target
  exponent target := mirrors_nest fun shallow => mirrors_unary (mirrored shallow) target
  negation target := mirrors_nest fun shallow =>
    mirrors_prefixed (mirrors_negation (mirrored shallow) target)
  signed target := mirrors_nest fun shallow =>
    mirrors_prefixed (mirrors_unary (mirrored shallow) target)
  display delimiter target := mirrorsAt_nest fun shallow base marks watched live seen =>
    (mirrors_display (mirrored shallow) delimiter target base marks watched live seen).bind
      fun _ _ _ holds => .pure ⟨rfl, holds.2⟩
  arguments := mirrorsAt_nest fun shallow base marks watched live seen =>
    (mirrors_arguments (mirrored shallow) base marks watched live seen).bind
      fun _ _ _ holds => .pure ⟨rfl, holds.2⟩

end Rules

theorem mirrored_nestedFor (levels : Nat) {depth : Nat}
    (enough : Builder.maxDepth ≤ levels + depth) :
    Mirrored (nestedFor levels) (Grammar.nestedFor levels) depth := by
  induction levels generalizing depth with
  | zero =>
      have limit (shallow : depth < Builder.maxDepth) : False := by omega
      exact
        { follows := Grammar.follows_nestedFor 0 enough
          test := fun _ => mirrors_nest fun shallow => (limit shallow).elim
          exponent := fun _ => mirrors_nest fun shallow => (limit shallow).elim
          negation := fun _ => mirrors_nest fun shallow => (limit shallow).elim
          signed := fun _ => mirrors_nest fun shallow => (limit shallow).elim
          display := fun _ _ => mirrorsAt_nest fun shallow => (limit shallow).elim
          arguments := mirrorsAt_nest fun shallow => (limit shallow).elim }
  | succ levels ih => exact .nest fun _ => ih (by omega)

/-- The checked rules never run out of levels either. -/
theorem mirrored_nested (depth : Nat) : Mirrored nested Grammar.nested depth :=
  mirrored_nestedFor Builder.maxDepth (Nat.le_add_right _ _)

theorem mirrors_expression {here : Scopes → Nat → Prop} (depth : Nat) :
    Mirrors here depth expression Grammar.expression :=
  mirrors_tuple (mirrored_nested depth) false

theorem mirrors_targetExpression {here : Scopes → Nat → Prop} (depth : Nat) :
    Mirrors here depth targetExpression Grammar.targetExpression :=
  mirrors_require _ (mirrors_tuple (mirrored_nested depth) true)

end StarlarkSyntax.Checked
