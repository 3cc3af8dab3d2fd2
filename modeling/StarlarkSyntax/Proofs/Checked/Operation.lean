import StarlarkSyntax.Proofs.Checked.Chain
/-!
# Operations, lambdas and comprehensions with their assertions

The ladder of operators has no assertions of its own: each level hands one mark on from round to
round. A lambda has to begin at its word, a comprehension at its `for`, and the parameters of a
function at their parenthesis.
-/

set_option autoImplicit false

namespace StarlarkSyntax.Checked

open Grammar (look isAt isAtAny isAtWord isAtOperator atEnd advance matches? expect missing
  skipUntil expectedExpression signs rpar lpar)

variable {nested : Nested} {plain : Grammar.Nested} {here : Scopes → Nat → Prop} {depth : Nat}

/-! ## Operations -/

/-- Operands with operators of one level between them. -/
def leftAssociative (level : Precedence) (left right : CheckedM Bool) : CheckedM Bool := do
  let operand ← mark
  if !(← left) then
    drop operand
    pure false
  else
    let operand ← loop (fun operand => do
      match ← look fun builder => level.operatorLength? (builder.nth? 0) (builder.nth? 1) with
      | none => pure (false, operand)
      | some length =>
        advance
        if length = 2 then advance
        require expectedExpression right
        pure (true, ← wrap operand .binaryExpression)) operand
    drop operand
    pure true

/-- An operator before its operand; the operator is the next token. -/
def prefixed (operand : CheckedM Bool) : CheckedM Bool := do
  let expression ← mark
  advance
  require expectedExpression operand
  done expression .prefixExpression
  pure true

/-- A chain, or a power of one. -/
def power (nested : Nested) (target : Bool) : CheckedM Bool := do
  let expression ← mark
  if !(← member nested target) then
    drop expression
    pure false
  else if ← matches? (.operator .starStar) then
    require expectedExpression (nested (.exponent target))
    done expression .binaryExpression
    pure true
  else
    drop expression
    pure true

/-- An operand with or without a sign. -/
def unary (nested : Nested) (target : Bool) : CheckedM Bool := do
  if ← isAtAny signs then nested (.signed target) else power nested target

/-- Products, quotients and remainders. -/
def multiplicative (nested : Nested) (target : Bool) : CheckedM Bool :=
  leftAssociative .multiplicative (unary nested target) (unary nested target)

/-- Sums and differences. -/
def additive (nested : Nested) (target : Bool) : CheckedM Bool :=
  leftAssociative .additive (multiplicative nested target) (multiplicative nested target)

/-- Shifts. -/
def shift (nested : Nested) (target : Bool) : CheckedM Bool :=
  leftAssociative .shift (additive nested target) (additive nested target)

/-- Operations `&`. -/
def bitAnd (nested : Nested) (target : Bool) : CheckedM Bool :=
  leftAssociative .bitAnd (shift nested target) (shift nested target)

/-- Operations `^`. -/
def bitXor (nested : Nested) (target : Bool) : CheckedM Bool :=
  leftAssociative .bitXor (bitAnd nested target) (bitAnd nested target)

/-- Operations `|`. -/
def bitOr (nested : Nested) (target : Bool) : CheckedM Bool :=
  leftAssociative .bitOr (bitXor nested target) (bitXor nested target)

/-- An operand with or without stars of the given sort before it. -/
def starred (symbol : Operator) (kind : NodeKind) (operand : CheckedM Bool) : CheckedM Bool := do
  if !(← isAtOperator symbol) then operand
  else
    let expression ← mark
    advance
    if ← operand then
      done expression kind
      pure true
    else
      missing expectedExpression
      drop expression
      pure false

/-- An operand with or without a star before it. -/
def starExpression (nested : Nested) (target : Bool) : CheckedM Bool :=
  starred .star .starExpression (bitOr nested target)

/-- An operand with or without two stars before it. -/
def doubleStar (nested : Nested) : CheckedM Bool :=
  starred .starStar .doubleStarExpression (bitOr nested false)

/-- Comparisons. -/
def comparison (nested : Nested) (target : Bool) : CheckedM Bool :=
  leftAssociative .comparison (starExpression nested target) (bitOr nested target)

/-- A comparison with or without `not` before it. -/
def negation (nested : Nested) (target : Bool) : CheckedM Bool := do
  if ← isAtWord .notWord then nested (.negation target) else comparison nested target

/-- Operations `and`. -/
def conjunction (nested : Nested) (target : Bool) : CheckedM Bool :=
  leftAssociative .conjunction (negation nested target) (negation nested target)

/-- Operations `or`, the loosest of all. -/
def operation (nested : Nested) (target : Bool) : CheckedM Bool :=
  leftAssociative .disjunction (conjunction nested target) (conjunction nested target)

theorem mirrors_leftAssociative (level : Precedence) {left right : CheckedM Bool}
    {left' right' : ParseM Bool} (mirrors : Mirrors here depth left left')
    (mirrors' : Mirrors here depth right right') :
    Mirrors here depth (leftAssociative level left right)
      (Grammar.leftAssociative level left' right') := by
  intro base marks watched live
  -- The mark goes from round to round; a round puts it around what there is so far.
  let going (mark : Mark) (marker : Marker) (watched : Watched) : Prop :=
    mark.marker = marker ∧ mark.marker.Since base 0 ∧ Live here base depth (mark :: marks) watched
  refine (matches_mark live).bind ?_
  rintro operand _ watched ⟨rfl, made, live, -⟩
  refine mirrors.bind live fun found watched live => ?_
  cases found with
  | false => exact (matches_drop live made).answers _
  | true =>
      refine (Matches.loop going going ?_ ⟨rfl, made, live⟩).bind ?_
      · rintro operand _ watched ⟨rfl, made, live⟩
        refine matches_look live fun next _ live => ?_
        dsimp only
        rcases level.operatorLength? (watched.parser.builder.nth? 0) (watched.parser.builder.nth? 1)
          with _ | length
        · exact .pure ⟨rfl, rfl, made, live⟩
        · have wrapped (watched : Watched)
              (live : Live here base depth (operand :: marks) watched) : Matches (do
                require expectedExpression right
                pure (true, ← wrap operand .binaryExpression)) (do
                Grammar.require expectedExpression right'
                pure (true, ← Grammar.wrap operand.marker .binaryExpression)) watched
                fun given answer next => given.1 = answer.1 ∧
                  if answer.1 then going given.2 answer.2 next else going given.2 answer.2 next := by
            refine (mirrors_require _ mirrors').bind live fun _ watched live => ?_
            refine (matches_wrap live made _).bind ?_
            rintro around _ next ⟨rfl, -, -, made, live⟩
            exact .pure ⟨rfl, rfl, made, live⟩
          refine mirrors_advance.bind live fun _ watched live => .ite (fun _ => ?_) fun _ => ?_
          · exact mirrors_advance.bind live fun _ watched live => wrapped watched live
          · exact wrapped watched live
      · rintro operand _ watched ⟨rfl, made, live⟩
        exact (matches_drop live made).answers _

theorem mirrors_prefixed {operand : CheckedM Bool} {operand' : ParseM Bool}
    (mirrors : Mirrors here depth operand operand') :
    Mirrors here depth (prefixed operand) (Grammar.prefixed operand') := by
  intro base marks watched live
  refine (matches_mark live).bind ?_
  rintro expression _ watched ⟨rfl, made, live, -⟩
  refine mirrors_advance.bind live fun _ watched live => ?_
  refine (mirrors_require _ mirrors).bind live fun _ watched live => ?_
  exact (matches_done live made _).answers _

theorem mirrors_power (mirrored : Mirrored nested plain depth) (target : Bool) :
    Mirrors here depth (power nested target) (Grammar.power plain target) := by
  intro base marks watched live
  refine (matches_mark live).bind ?_
  rintro expression _ watched ⟨rfl, made, live, -⟩
  refine (mirrors_member mirrored target).bind live fun found watched live => .ite (fun _ => ?_)
    fun _ => ?_
  · exact (matches_drop live made).answers _
  refine (mirrors_matches? _).bind live fun found watched live => .ite (fun _ => ?_) fun _ => ?_
  · refine (mirrors_require _ (mirrored.exponent target)).bind live fun _ watched live => ?_
    exact (matches_done live made _).answers _
  · exact (matches_drop live made).answers _

theorem mirrors_unary (mirrored : Mirrored nested plain depth) (target : Bool) :
    Mirrors here depth (unary nested target) (Grammar.unary plain target) :=
  (mirrors_look _).seq fun _ => .ite (mirrored.signed target) (mirrors_power mirrored target)

theorem mirrors_bitOr (mirrored : Mirrored nested plain depth) (target : Bool) :
    Mirrors here depth (bitOr nested target) (Grammar.bitOr plain target) := by
  have unary : Mirrors here depth _ _ := mirrors_unary mirrored target
  have multiplicative := mirrors_leftAssociative .multiplicative unary unary
  have additive := mirrors_leftAssociative .additive multiplicative multiplicative
  have shift := mirrors_leftAssociative .shift additive additive
  have bitAnd := mirrors_leftAssociative .bitAnd shift shift
  have bitXor := mirrors_leftAssociative .bitXor bitAnd bitAnd
  exact mirrors_leftAssociative .bitOr bitXor bitXor

theorem mirrors_starred (symbol : Operator) (kind : NodeKind) {operand : CheckedM Bool}
    {operand' : ParseM Bool} (mirrors : Mirrors here depth operand operand') :
    Mirrors here depth (starred symbol kind operand) (Grammar.starred symbol kind operand') := by
  refine (mirrors_isAtOperator symbol).seq fun _ => .ite mirrors ?_
  intro base marks watched live
  refine (matches_mark live).bind ?_
  rintro expression _ watched ⟨rfl, made, live, -⟩
  refine mirrors_advance.bind live fun _ watched live => ?_
  refine mirrors.bind live fun found watched live => .ite (fun _ => ?_) fun _ => ?_
  · exact (matches_done live made _).answers _
  · refine (mirrors_missing _).bind live fun _ watched live => ?_
    exact (matches_drop live made).answers _

theorem mirrors_starExpression (mirrored : Mirrored nested plain depth) (target : Bool) :
    Mirrors here depth (starExpression nested target) (Grammar.starExpression plain target) :=
  mirrors_starred _ _ (mirrors_bitOr mirrored target)

theorem mirrors_doubleStar (mirrored : Mirrored nested plain depth) :
    Mirrors here depth (doubleStar nested) (Grammar.doubleStar plain) :=
  mirrors_starred _ _ (mirrors_bitOr mirrored false)

theorem mirrors_negation (mirrored : Mirrored nested plain depth) (target : Bool) :
    Mirrors here depth (negation nested target) (Grammar.negation plain target) :=
  (mirrors_isAtWord _).seq fun _ => .ite (mirrored.negation target) <|
    mirrors_leftAssociative _ (mirrors_starExpression mirrored target) (mirrors_bitOr mirrored target)

theorem mirrors_operation (mirrored : Mirrored nested plain depth) (target : Bool) :
    Mirrors here depth (operation nested target) (Grammar.operation plain target) := by
  have negation : Mirrors here depth _ _ := mirrors_negation mirrored target
  have conjunction := mirrors_leftAssociative .conjunction negation negation
  exact mirrors_leftAssociative .disjunction conjunction conjunction

/-! ## Parameters -/

/-- One parameter of a list that ends at the given kind of token. -/
def parameter (nested : Nested) (stop : Kind) : CheckedM Bool := do
  let parameter ← mark
  if ← matches? (.operator .starStar) then
    let _ ← expect .identifier "expected a parameter name"
    done parameter .keywordVariadicParameter
    pure true
  else if ← matches? (.operator .star) then
    let _ ← matches? .identifier
    done parameter .variadicParameter
    pure true
  else if ← matches? .identifier then
    if ← matches? .equals then
      requireTest nested
      done parameter .optionalParameter
    else
      done parameter .mandatoryParameter
    pure true
  else if ← skipUntil [.comma, stop, .colon, rpar, .statementBreak] then
    fault parameter "expected a parameter"
    pure true
  else
    drop parameter
    pure false

/-- Parameters separated by commas, up to the given kind of token. -/
def parameters (nested : Nested) (stop : Kind) : CheckedM Unit := do
  let _ ← loop (fun first => do
    if (← atEnd) || (← isAt stop) then pure (false, first)
    else if first then pure (← parameter nested stop, false)
    else if !(← expect .comma "expected ','") then pure (false, false)
    else if ← isAt stop then pure (false, false)
    else pure (← parameter nested stop, false)) true

/-- The parameters of a function with their parentheses, which have to come next. -/
def parameterList (nested : Nested) : CheckedM Unit := do
  let list ← mark
  assertAt lpar
  advance
  parameters nested rpar
  let _ ← expect rpar "expected ')'"
  done list .parameterList

/-- The parameters of a lambda, up to its colon, which is left. -/
def lambdaParameters (nested : Nested) : CheckedM Unit := do
  let list ← mark
  parameters nested .colon
  done list .parameterList

theorem mirrors_parameter (mirrored : Mirrored nested plain depth) (stop : Kind) :
    Mirrors here depth (parameter nested stop) (Grammar.parameter plain stop) := by
  intro base marks watched live
  refine (matches_mark live).bind ?_
  rintro parameter _ watched ⟨rfl, made, live, -⟩
  refine (mirrors_matches? _).bind live fun _ watched live => .ite (fun _ => ?_) fun _ => ?_
  · exact (mirrors_expect _ _).bind live fun _ _ live => (matches_done live made _).answers _
  refine (mirrors_matches? _).bind live fun _ watched live => .ite (fun _ => ?_) fun _ => ?_
  · exact (mirrors_matches? _).bind live fun _ _ live => (matches_done live made _).answers _
  refine (mirrors_matches? _).bind live fun _ watched live => .ite (fun _ => ?_) fun _ => ?_
  · refine (mirrors_matches? _).bind live fun _ watched live => .ite (fun _ => ?_) fun _ => ?_
    · refine (mirrors_requireTest mirrored).bind live fun _ watched live => ?_
      exact (matches_done live made _).answers _
    · exact (matches_done live made _).answers _
  refine (mirrors_skipUntil _).bind live fun _ watched live => .ite (fun _ => ?_) fun _ => ?_
  · exact (matches_fault live made _).answers _
  · exact (matches_drop live made).answers _

theorem mirrors_parameters (mirrored : Mirrored nested plain depth) (stop : Kind) :
    Mirrors here depth (parameters nested stop) (Grammar.parameters plain stop) := by
  have parameter : Mirrors here depth (do
      pure (← parameter nested stop, false)) (do
      pure (← Grammar.parameter plain stop, false)) :=
    (mirrors_parameter mirrored stop).seq fun _ => .pure _
  refine (mirrors_loop (fun first => ?_) true).seq fun _ => .pure ()
  refine (mirrors_look _).seq fun _ => (mirrors_look _).seq fun _ => .ite (.pure _) ?_
  refine .ite parameter ?_
  refine (mirrors_expect _ _).seq fun _ => .ite (.pure _) ?_
  exact (mirrors_look _).seq fun _ => .ite (.pure _) parameter

theorem mirrors_parameterList (mirrored : Mirrored nested plain depth) :
    MirrorsAt here depth lpar (parameterList nested) (Grammar.parameterList plain) := by
  intro base marks watched live seen
  refine (matches_mark live).bind ?_
  rintro list _ watched ⟨rfl, made, live, view, -⟩
  refine .assertAt ((congrFun view 0).trans seen) ?_
  refine mirrors_advance.bind live fun _ watched live => ?_
  refine (mirrors_parameters mirrored _).bind live fun _ watched live => ?_
  refine (mirrors_expect _ _).bind live fun _ watched live => ?_
  exact (matches_done live made _).agrees

theorem mirrors_lambdaParameters (mirrored : Mirrored nested plain depth) :
    Mirrors here depth (lambdaParameters nested) (Grammar.lambdaParameters plain) := by
  intro base marks watched live
  refine (matches_mark live).bind ?_
  rintro list _ watched ⟨rfl, made, live, -⟩
  refine (mirrors_parameters mirrored _).bind live fun _ watched live => ?_
  exact (matches_done live made _).agrees

/-! ## Lambdas and comprehensions -/

/-- A lambda up to its colon; the next token has to be its word. -/
def lambdaHead (nested : Nested) : CheckedM Mark := do
  assertAt (.reserved .lambdaWord)
  let expression ← mark
  advance
  lambdaParameters nested
  let _ ← expect .colon "expected ':'"
  pure expression

/-- A lambda with the given rule for its body. -/
def lambda (nested : Nested) (body : CheckedM Bool) : CheckedM Bool := do
  let expression ← lambdaHead nested
  require expectedExpression body
  done expression .lambdaExpression
  pure true

/-- An item of a range, which is an operation or a lambda with such an item for its body. -/
def Nested.rangeItem (nested : Nested) : CheckedM Bool := do
  if !(← isAtWord .lambdaWord) then operation nested false
  else
    let expression ← lambdaHead nested
    if !(← nested |>.rangeItem) then missing expectedExpression
    done expression .lambdaExpression
    pure true
partial_fixpoint

/-- A condition of a comprehension. -/
def condition (nested : Nested) : CheckedM Bool := do
  if ← isAtWord .lambdaWord then lambda nested (test nested false) else operation nested false

/-- The targets of a `for`, which are a tuple if there is a comma. -/
def targets (nested : Nested) : CheckedM Unit := do
  let tuple ← mark
  if !(← starExpression nested true) then
    missing expectedExpression
    drop tuple
  else if !(← isAt .comma) then
    drop tuple
  else
    repeatWhile do
      if !(← matches? .comma) then pure false
      else
        let place ← mark
        if ← starExpression nested true then
          drop place
          pure true
        else
          rollback place
          pure false
    done tuple .tupleExpression

/-- A `for` with its conditions; the next token is the word. -/
def clause (nested : Nested) (kind : NodeKind) : CheckedM Unit := do
  advance
  targets nested
  let _ ← expect (.reserved .inWord) "expected 'in'"
  require expectedExpression <|
    if kind = .generatorExpression then operation nested false
    else tupleOf nested.rangeItem
  repeatWhile do
    if ← isAtWord .ifWord then
      advance
      require expectedExpression (condition nested)
      pure true
    else pure false

/-- The clauses of a comprehension that began at a mark, and the bracket that closes it. The next
token has to be the word of the first clause. -/
def comprehension (nested : Nested) (expression : Mark) (close? : Option Kind)
    (kind : NodeKind) : CheckedM Unit := do
  assertAt (.reserved .forWord)
  repeatWhile do
    clause nested kind
    isAtWord .forWord
  if let some close := close? then
    if !(← matches? close) then missing ("expected 'for' or '" ++ close.name ++ "'")
  done expression kind

section Lambdas

variable {base : Parser} {marks : List Mark} {watched : Watched}

theorem matches_lambdaHead (mirrored : Mirrored nested plain depth)
    (live : Live here base depth marks watched)
    (seen : watched.parser.builder.current? = some (.reserved .lambdaWord)) :
    Matches (lambdaHead nested) (Grammar.lambdaHead plain) watched fun mark marker next =>
      mark.marker = marker ∧ mark.marker.Since base 0 ∧
        Live here base depth (mark :: marks) next := by
  refine .assertAt seen ?_
  refine (matches_mark live).bind ?_
  rintro expression _ watched ⟨rfl, made, live, -⟩
  refine mirrors_advance.bind live fun _ watched live => ?_
  refine (mirrors_lambdaParameters mirrored).bind live fun _ watched live => ?_
  exact (mirrors_expect _ _).bind live fun _ watched live => .pure ⟨rfl, made, live⟩

theorem mirrors_lambda (mirrored : Mirrored nested plain depth) {body : CheckedM Bool}
    {body' : ParseM Bool} (mirrors : Mirrors here depth body body') :
    MirrorsAt here depth (.reserved .lambdaWord) (lambda nested body) (Grammar.lambda plain body') := by
  intro base marks watched live seen
  refine (matches_lambdaHead mirrored live seen).bind ?_
  rintro expression _ watched ⟨rfl, made, live⟩
  refine (mirrors_require _ mirrors).bind live fun _ watched live => ?_
  exact (matches_done live made _).answers _

/-- A rule that is followed where its token comes next, and another one elsewhere. -/
theorem Mirrors.choose {kind : Kind} {special other : CheckedM Bool}
    {special' other' : ParseM Bool} (mirrors : MirrorsAt here depth kind special special')
    (mirrors' : Mirrors here depth other other') :
    Mirrors here depth (do
      if ← isAt kind then special else other) (do
      if ← isAt kind then special' else other') := by
  intro base marks watched live
  refine matches_isAt live fun next same live => .ite (fun isAt => ?_) fun _ => ?_
  · exact mirrors base marks next live (same ▸ Grammar.current?_of_isAt isAt)
  · exact mirrors' base marks next live

/-- Each body is read after the word of its lambda, so the induction is on the tokens that are left. -/
theorem matches_rangeItem (mirrored : Mirrored nested plain depth) (marks : List Mark)
    (watched : Watched) (live : Live here base depth marks watched) :
    Matches nested.rangeItem plain.rangeItem watched (Agrees here base depth marks) := by
  rw [Nested.rangeItem, Grammar.Nested.rangeItem]
  refine matches_isAt live fun next same live => .ite (fun _ => ?_) fun isAt => ?_
  · exact mirrors_operation mirrored false base marks next live
  · have seen := Grammar.current?_of_isAt (by simpa using isAt)
    rw [← same] at seen
    have ends := Grammar.ends_lambdaHead mirrored.follows (live.since.raise (Nat.le_refl _)) seen
    refine ((matches_lambdaHead mirrored live seen).with_ends ends).bind ?_
    rintro expression _ last ⟨⟨rfl, made, live⟩, later, -⟩
    have moved := later.reached
    have inside := later.builder.inside
    rw [same] at moved
    have shorter : base.builder.significant.size - last.parser.builder.cursor <
        base.builder.significant.size - watched.parser.builder.cursor := by
      omega
    refine (matches_rangeItem mirrored _ last live).bind ?_
    rintro found _ next ⟨rfl, live⟩
    cases found with
    | false => exact (mirrors_missing _).bind live fun _ _ live => (matches_done live made _).answers _
    | true => exact (matches_done live made _).answers _
termination_by base.builder.significant.size - watched.parser.builder.cursor
decreasing_by exact shorter

theorem mirrors_rangeItem (mirrored : Mirrored nested plain depth) :
    Mirrors here depth nested.rangeItem plain.rangeItem :=
  fun _ => matches_rangeItem mirrored

theorem mirrors_condition (mirrored : Mirrored nested plain depth) :
    Mirrors here depth (condition nested) (Grammar.condition plain) :=
  .choose (mirrors_lambda mirrored (mirrored.test false)) (mirrors_operation mirrored false)

theorem mirrors_targets (mirrored : Mirrored nested plain depth) :
    Mirrors here depth (targets nested) (Grammar.targets plain) := by
  intro base marks watched live
  have item : Mirrors here depth _ _ := mirrors_starExpression mirrored true
  refine (matches_mark live).bind ?_
  rintro tuple _ watched ⟨rfl, made, live, -⟩
  refine item.bind live fun _ watched live => .ite (fun _ => ?_) fun _ => ?_
  · exact (mirrors_missing _).bind live fun _ _ live => (matches_drop live made).agrees
  refine matches_isAt live fun watched _ live => .ite (fun _ => ?_) fun _ => ?_
  · exact (matches_drop live made).agrees
  refine (mirrors_moreItems item).bind live fun _ watched live => ?_
  exact (matches_done live made _).agrees

theorem mirrors_clause (mirrored : Mirrored nested plain depth) (kind : NodeKind) :
    Mirrors here depth (clause nested kind) (Grammar.clause plain kind) := by
  have range : Mirrors here depth
      (if kind = .generatorExpression then operation nested false else tupleOf nested.rangeItem)
      (if kind = .generatorExpression then Grammar.operation plain false
        else Grammar.tupleOf plain.rangeItem) :=
    .ite (mirrors_operation mirrored false) (mirrors_tupleOf (mirrors_rangeItem mirrored))
  refine mirrors_advance.seq fun _ => (mirrors_targets mirrored).seq fun _ => ?_
  refine (mirrors_expect _ _).seq fun _ => (mirrors_require _ range).seq fun _ => ?_
  refine mirrors_repeatWhile ((mirrors_isAtWord _).seq fun _ => .ite ?_ (.pure false))
  refine mirrors_advance.seq fun _ => ?_
  exact (mirrors_require _ (mirrors_condition mirrored)).seq fun _ => .pure true

theorem matches_comprehension (mirrored : Mirrored nested plain depth) {expression : Mark}
    (live : Live here base depth (expression :: marks) watched)
    (made : expression.marker.Since base 0)
    (seen : watched.parser.builder.current? = some (.reserved .forWord)) (close? : Option Kind)
    (kind : NodeKind) :
    Matches (comprehension nested expression close? kind)
      (Grammar.comprehension plain expression.marker close? kind) watched
      (Agrees here base depth marks) := by
  refine .assertAt seen ?_
  refine (mirrors_repeatWhile ((mirrors_clause mirrored kind).seq fun _ => mirrors_isAtWord _)).bind live
    fun _ watched live => ?_
  cases close? with
  | none => exact (matches_done live made kind).agrees
  | some close =>
      refine (mirrors_matches? close).bind live fun found watched live => ?_
      cases found with
      | false => exact (mirrors_missing _).bind live fun _ _ live => (matches_done live made kind).agrees
      | true => exact (matches_done live made kind).agrees

end Lambdas

end StarlarkSyntax.Checked
