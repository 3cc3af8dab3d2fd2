import StarlarkSyntax.Proofs.Checked.Operation
/-!
# Displays and arguments with their assertions

What stands in brackets has to begin at its bracket. A display hands its mark on to whatever its
first element shows it to be, so the mark is completed far from where it was made; the lemmas about
what comes after the first element say that it has to be the newest mark then.
-/

set_option autoImplicit false

namespace StarlarkSyntax.Checked

open Grammar (isAt isAtAny isAtWord isAtOperator advance matches? expect missing skipUntil
  expectedExpression lpar rpar lbracket rbracket lbrace rbrace)

variable {nested : Nested} {plain : Grammar.Nested} {here : Scopes → Nat → Prop} {depth : Nat}

/-! ## Displays -/

/-- The elements of a list or a set after the first, and the closing bracket. -/
def elements (nested : Nested) (target : Bool) (expression : Mark) (close : Kind)
    (kind : NodeKind) : CheckedM Unit := do
  let closing := "'" ++ close.name ++ "'"
  repeatWhile do
    if ← isAt close then pure false
    else
      if !(← matches? .comma) then missing ("expected " ++ closing ++ " or ','")
      if ← isAt close then pure false
      else if ← test nested target then pure true
      else
        missing ("expected an expression, ',' or " ++ closing)
        pure false
  let _ ← expect close ("expected " ++ closing)
  done expression kind

/-- A list; the next token has to be its bracket. -/
def listDisplay (nested : Nested) (target : Bool) : CheckedM Unit := do
  assertAt lbracket
  let expression ← mark
  advance
  if ← matches? rbracket then
    done expression .listLiteralExpression
  else
    require expectedExpression (test nested target)
    if ← isAtWord .forWord then
      comprehension nested expression (some rbracket) .listCompExpression
    else
      elements nested target expression rbracket .listLiteralExpression

/-- Something in parentheses, of which the first has to come next. -/
def parenthesized (nested : Nested) (target : Bool) : CheckedM Unit := do
  assertAt lpar
  let expression ← mark
  advance
  if ← matches? rpar then
    done expression .tupleExpression
  else
    let _ ← tuple nested target
    if ← isAtWord .forWord then
      comprehension nested expression (some rpar) .generatorExpression
    else
      let junk ← mark
      if ← skipUntil [rpar, .statementBreak] then fault junk "unexpected expression syntax"
      else drop junk
      let _ ← expect rpar "expected ')'"
      done expression .parenthesizedExpression

/-- A key, a colon and a value. -/
def keyValue (nested : Nested) : CheckedM Bool := do
  let pair ← mark
  if !(← test nested false) then
    drop pair
    pure false
  else
    let _ ← expect .colon "expected ':'"
    if ← test nested false then
      done pair .keyValueExpression
      pure true
    else
      missing "expected a value"
      drop pair
      pure false

/-- The entries of a dictionary after the first, and the closing brace. -/
def entries (nested : Nested) (expression : Mark) : CheckedM Unit := do
  repeatWhile do
    if ← isAt rbrace then pure false
    else
      let _ ← expect .comma "expected ','"
      if ← isAtOperator .starStar then doubleStar nested else keyValue nested
  let _ ← expect rbrace "expected '\x7d'"
  done expression .dictLiteralExpression

/-- A dictionary from the value of its first key on. -/
def dictionary (nested : Nested) (expression pair : Mark) : CheckedM Unit := do
  if ← test nested false then
    done pair .keyValueExpression
    if ← isAtWord .forWord then
      comprehension nested expression (some rbrace) .dictCompExpression
    else
      entries nested expression
  else
    missing expectedExpression
    done pair .keyValueExpression
    let _ ← matches? rbrace
    done expression .dictLiteralExpression

/-- Something in braces, of which the first has to come next. -/
def braces (nested : Nested) : CheckedM Unit := do
  assertAt lbrace
  let expression ← mark
  advance
  if ← matches? rbrace then
    done expression .dictLiteralExpression
  else if ← isAtOperator .starStar then
    if ← doubleStar nested then
      entries nested expression
    else
      missing expectedExpression
      done expression .dictLiteralExpression
  else
    let first ← mark
    if !(← test nested false) then
      missing expectedExpression
      drop first
      done expression .dictLiteralExpression
    else if ← matches? .colon then
      dictionary nested expression first
    else
      drop first
      if ← isAtWord .forWord then
        comprehension nested expression (some rbrace) .dictCompExpression
      else
        elements nested false expression rbrace .dictLiteralExpression

/-- Something in brackets of the given sort. -/
def display (nested : Nested) (delimiter : Delimiter) (target : Bool) : CheckedM Unit :=
  match delimiter with
  | .parenthesis => parenthesized nested target
  | .bracket => listDisplay nested target
  | .brace => braces nested

section Displays

variable {base : Parser} {marks : List Mark} {watched : Watched}
  {expression : Mark}

theorem matches_elements (mirrored : Mirrored nested plain depth)
    (live : Live here base depth (expression :: marks) watched)
    (made : expression.marker.Since base 0) (target : Bool) (close : Kind) (kind : NodeKind) :
    Matches (elements nested target expression close kind)
      (Grammar.elements plain target expression.marker close kind) watched
      (Agrees here base depth marks) := by
  have element : Mirrors here depth (do
      if ← isAt close then pure false
      else if ← test nested target then pure true
      else
        missing ("expected an expression, ',' or " ++ ("'" ++ close.name ++ "'"))
        pure false) (do
      if ← isAt close then pure false
      else if ← Grammar.test plain target then pure true
      else
        missing ("expected an expression, ',' or " ++ ("'" ++ close.name ++ "'"))
        pure false) :=
    (mirrors_isAt close).seq fun _ => .ite (.pure false) <| (mirrored.test target).seq fun _ =>
      .ite (.pure true) ((mirrors_missing _).seq fun _ => .pure false)
  refine (mirrors_repeatWhile ((mirrors_isAt close).seq fun _ => .ite (.pure false) ?_)).bind live
    fun _ watched live => ?_
  · refine (mirrors_matches? .comma).seq fun found => .ite ?_ element
    exact (mirrors_missing _).seq fun _ => element
  · refine (mirrors_expect _ _).bind live fun _ watched live => ?_
    exact (matches_done live made kind).agrees

/-- A comprehension, or whatever else comes where there is no word `for`. -/
theorem matches_comprehensionOr (mirrored : Mirrored nested plain depth)
    (live : Live here base depth (expression :: marks) watched)
    (made : expression.marker.Since base 0) (close? : Option Kind) (kind : NodeKind)
    {other : CheckedM Unit} {other' : ParseM Unit}
    (otherwise : ∀ next, Live here base depth (expression :: marks) next →
      Matches other other' next (Agrees here base depth marks)) :
    Matches (do
      if ← isAtWord .forWord then comprehension nested expression close? kind else other) (do
      if ← isAtWord .forWord then Grammar.comprehension plain expression.marker close? kind
      else other') watched (Agrees here base depth marks) := by
  refine matches_isAt live fun next same live => .ite (fun isAt => ?_) fun _ => otherwise next live
  exact matches_comprehension mirrored live made (same ▸ Grammar.current?_of_isAt isAt) close? kind

theorem mirrors_listDisplay (mirrored : Mirrored nested plain depth) (target : Bool) :
    MirrorsAt here depth lbracket (listDisplay nested target) (Grammar.listDisplay plain target) := by
  intro base marks watched live seen
  refine .assertAt seen ((matches_mark live).bind ?_)
  rintro expression _ watched ⟨rfl, made, live, -⟩
  refine mirrors_advance.bind live fun _ watched live => ?_
  refine (mirrors_matches? _).bind live fun _ watched live => .ite (fun _ => ?_) fun _ => ?_
  · exact (matches_done live made _).agrees
  refine (mirrors_require _ (mirrored.test target)).bind live fun _ watched live => ?_
  exact matches_comprehensionOr mirrored live made _ _ fun next live =>
    matches_elements mirrored live made target _ _

theorem mirrors_parenthesized (mirrored : Mirrored nested plain depth) (target : Bool) :
    MirrorsAt here depth lpar (parenthesized nested target) (Grammar.parenthesized plain target) := by
  intro base marks watched live seen
  refine .assertAt seen ((matches_mark live).bind ?_)
  rintro expression _ watched ⟨rfl, made, live, -⟩
  refine mirrors_advance.bind live fun _ watched live => ?_
  refine (mirrors_matches? _).bind live fun _ watched live => .ite (fun _ => ?_) fun _ => ?_
  · exact (matches_done live made _).agrees
  refine (mirrors_tuple mirrored target).bind live fun _ watched live => ?_
  refine matches_comprehensionOr mirrored live made _ _ fun watched live => ?_
  refine (matches_mark live).bind ?_
  rintro junk _ watched ⟨rfl, skipped, live, -⟩
  have close (watched : Watched) (live : Live here base depth (expression :: marks) watched) :
      Matches (do
        let _ ← expect rpar "expected ')'"
        done expression .parenthesizedExpression) (do
        let _ ← expect rpar "expected ')'"
        Grammar.done expression.marker .parenthesizedExpression) watched
          (Agrees here base depth marks) := by
    refine (mirrors_expect _ _).bind live fun _ watched live => ?_
    exact (matches_done live made _).agrees
  refine (mirrors_skipUntil _).bind live fun _ watched live => .ite (fun _ => ?_) fun _ => ?_
  · exact (matches_fault live skipped _).bind fun _ _ watched live => close watched live
  · exact (matches_drop live skipped).bind fun _ _ watched live => close watched live

theorem mirrors_keyValue (mirrored : Mirrored nested plain depth) :
    Mirrors here depth (keyValue nested) (Grammar.keyValue plain) := by
  intro base marks watched live
  have test : Mirrors here depth _ _ := mirrored.test false
  refine (matches_mark live).bind ?_
  rintro pair _ watched ⟨rfl, made, live, -⟩
  refine test.bind live fun _ watched live => .ite (fun _ => ?_) fun _ => ?_
  · exact (matches_drop live made).answers _
  refine (mirrors_expect _ _).bind live fun _ watched live => ?_
  refine test.bind live fun _ watched live => .ite (fun _ => ?_) fun _ => ?_
  · exact (matches_done live made _).answers _
  · refine (mirrors_missing _).bind live fun _ watched live => ?_
    exact (matches_drop live made).answers _

theorem matches_entries (mirrored : Mirrored nested plain depth)
    (live : Live here base depth (expression :: marks) watched)
    (made : expression.marker.Since base 0) :
    Matches (entries nested expression) (Grammar.entries plain expression.marker) watched
      (Agrees here base depth marks) := by
  refine (mirrors_repeatWhile ((mirrors_isAt _).seq fun _ => .ite (.pure false) ?_)).bind live
    fun _ watched live => ?_
  · refine (mirrors_expect _ _).seq fun _ => (mirrors_isAtOperator _).seq fun _ => ?_
    exact .ite (mirrors_doubleStar mirrored) (mirrors_keyValue mirrored)
  · refine (mirrors_expect _ _).bind live fun _ watched live => ?_
    exact (matches_done live made _).agrees

theorem matches_dictionary (mirrored : Mirrored nested plain depth) {pair : Mark}
    (live : Live here base depth (pair :: expression :: marks) watched)
    (made : expression.marker.Since base 0) (paired : pair.marker.Since base 0) :
    Matches (dictionary nested expression pair)
      (Grammar.dictionary plain expression.marker pair.marker) watched
      (Agrees here base depth marks) := by
  refine (mirrored.test false).bind live fun _ watched live => .ite (fun _ => ?_) fun _ => ?_
  · refine (matches_done live paired _).bind fun _ _ watched live => ?_
    exact matches_comprehensionOr mirrored live made _ _ fun next live =>
      matches_entries mirrored live made
  · refine (mirrors_missing _).bind live fun _ watched live => ?_
    refine (matches_done live paired _).bind fun _ _ watched live => ?_
    refine (mirrors_matches? _).bind live fun _ watched live => ?_
    exact (matches_done live made _).agrees

theorem mirrors_braces (mirrored : Mirrored nested plain depth) :
    MirrorsAt here depth lbrace (braces nested) (Grammar.braces plain) := by
  intro base marks watched live seen
  refine .assertAt seen ((matches_mark live).bind ?_)
  rintro expression _ watched ⟨rfl, made, live, -⟩
  refine mirrors_advance.bind live fun _ watched live => ?_
  refine (mirrors_matches? _).bind live fun _ watched live => .ite (fun _ => ?_) fun _ => ?_
  · exact (matches_done live made _).agrees
  refine (mirrors_isAtOperator _).bind live fun _ watched live => .ite (fun _ => ?_) fun _ => ?_
  · refine (mirrors_doubleStar mirrored).bind live fun _ watched live => .ite (fun _ => ?_)
      fun _ => ?_
    · exact matches_entries mirrored live made
    · exact (mirrors_missing _).bind live fun _ _ live => (matches_done live made _).agrees
  refine (matches_mark live).bind ?_
  rintro first _ watched ⟨rfl, paired, live, -⟩
  refine (mirrored.test false).bind live fun _ watched live => .ite (fun _ => ?_) fun _ => ?_
  · refine (mirrors_missing _).bind live fun _ watched live => ?_
    exact (matches_drop live paired).bind fun _ _ _ live => (matches_done live made _).agrees
  refine (mirrors_matches? _).bind live fun _ watched live => .ite (fun _ => ?_) fun _ => ?_
  · exact matches_dictionary mirrored live made paired
  · refine (matches_drop live paired).bind fun _ _ watched live => ?_
    exact matches_comprehensionOr mirrored live made _ _ fun next live =>
      matches_elements mirrored live made false _ _

theorem mirrors_display (mirrored : Mirrored nested plain depth) (delimiter : Delimiter)
    (target : Bool) : MirrorsAt here depth (.opening delimiter) (display nested delimiter target)
      (Grammar.display plain delimiter target) := by
  cases delimiter with
  | parenthesis => exact mirrors_parenthesized mirrored target
  | bracket => exact mirrors_listDisplay mirrored target
  | brace => exact mirrors_braces mirrored

end Displays

/-! ## Arguments -/

/-- An argument with a name, if there is one. -/
def namedArgument (nested : Nested) : CheckedM Bool := do
  if !(← isAt .identifier) then pure false
  else
    let argument ← mark
    advance
    if ← matches? .equals then
      requireTest nested
      done argument .namedArgumentExpression
      pure true
    else
      rollback argument
      pure false

/-- An argument that is an expression; the first one may be a generator. -/
def plainArgument (nested : Nested) (first : Bool) : CheckedM Bool := do
  let argument ← mark
  let generator ← mark
  if !(← test nested false) then
    rollback argument
    pure false
  else
    if first && (← isAtWord .forWord) then
      comprehension nested generator none .generatorExpression
    else
      drop generator
    done argument .argumentExpression
    pure true

/-- One argument. -/
def argument (nested : Nested) (first : Bool) : CheckedM Bool := do
  if ← isAtAny [.operator .star, .operator .starStar] then
    let argument ← mark
    advance
    requireTest nested
    done argument .starArgumentExpression
    pure true
  else if ← namedArgument nested then pure true
  else plainArgument nested first

/-- The arguments of a call with their parentheses, of which the first has to come next. -/
def arguments (nested : Nested) : CheckedM Unit := do
  assertAt lpar
  let list ← mark
  advance
  let _ ← loop (fun first => do
    if ← isAt rpar then pure (false, first)
    else if first then pure (← argument nested true, false)
    else if !(← matches? .comma) then
      missing "expected ',' or ')'"
      pure (false, false)
    else if ← isAt rpar then pure (false, false)
    else pure (← argument nested false, false)) true
  let _ ← expect rpar "expected ')'"
  done list .argumentList

theorem mirrors_namedArgument (mirrored : Mirrored nested plain depth) :
    Mirrors here depth (namedArgument nested) (Grammar.namedArgument plain) := by
  refine (mirrors_isAt _).seq fun _ => .ite (.pure false) ?_
  intro base marks watched live
  refine (matches_mark live).bind ?_
  rintro argument _ watched ⟨rfl, made, live, -⟩
  refine mirrors_advance.bind live fun _ watched live => ?_
  refine (mirrors_matches? _).bind live fun _ watched live => .ite (fun _ => ?_) fun _ => ?_
  · refine (mirrors_requireTest mirrored).bind live fun _ watched live => ?_
    exact (matches_done live made _).answers _
  · exact (matches_rollback live made).answers _

theorem mirrors_plainArgument (mirrored : Mirrored nested plain depth) (first : Bool) :
    Mirrors here depth (plainArgument nested first) (Grammar.plainArgument plain first) := by
  intro base marks watched live
  refine (matches_mark live).bind ?_
  rintro argument _ watched ⟨rfl, made, live, -⟩
  refine (matches_mark live).bind ?_
  rintro generator _ watched ⟨rfl, made', live, -⟩
  refine (mirrored.test false).bind live fun _ watched live => .ite (fun _ => ?_) fun _ => ?_
  · exact (matches_rollback live.tail made).answers _
  refine matches_isAt live fun next same live => .ite (fun holds => ?_) fun _ => ?_
  · have seen := Grammar.current?_of_isAt (Bool.and_eq_true_iff.1 holds).2
    refine (matches_comprehension mirrored live made' (same ▸ seen) none _).bind ?_
    exact fun _ _ _ holds => (matches_done holds.2 made _).answers _
  · exact (matches_drop live made').bind fun _ _ _ live => (matches_done live made _).answers _

theorem mirrors_argument (mirrored : Mirrored nested plain depth) (first : Bool) :
    Mirrors here depth (argument nested first) (Grammar.argument plain first) := by
  refine (mirrors_look _).seq fun _ => .ite ?_ ?_
  · intro base marks watched live
    refine (matches_mark live).bind ?_
    rintro argument _ watched ⟨rfl, made, live, -⟩
    refine mirrors_advance.bind live fun _ watched live => ?_
    refine (mirrors_requireTest mirrored).bind live fun _ watched live => ?_
    exact (matches_done live made _).answers _
  · refine (mirrors_namedArgument mirrored).seq fun _ => .ite (.pure true) ?_
    exact mirrors_plainArgument mirrored first

theorem mirrors_arguments (mirrored : Mirrored nested plain depth) :
    MirrorsAt here depth lpar (arguments nested) (Grammar.arguments plain) := by
  intro base marks watched live seen
  have argument (first : Bool) : Mirrors here depth (do
      pure (← argument nested first, false)) (do
      pure (← Grammar.argument plain first, false)) :=
    (mirrors_argument mirrored first).seq fun _ => .pure _
  refine .assertAt seen ((matches_mark live).bind ?_)
  rintro list _ watched ⟨rfl, made, live, -⟩
  refine mirrors_advance.bind live fun _ watched live => ?_
  refine (mirrors_loop (fun first => ?_) true).bind live fun _ watched live => ?_
  · refine (mirrors_isAt _).seq fun _ => .ite (.pure _) (.ite (argument true) ?_)
    refine (mirrors_matches? _).seq fun _ => .ite ?_ ?_
    · exact (mirrors_missing _).seq fun _ => .pure _
    · exact (mirrors_isAt _).seq fun _ => .ite (.pure _) (argument false)
  · refine (mirrors_expect _ _).bind live fun _ watched live => ?_
    exact (matches_done live made _).agrees

end StarlarkSyntax.Checked
