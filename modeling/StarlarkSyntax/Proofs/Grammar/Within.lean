import StarlarkSyntax.Proofs.Grammar.Bound
import StarlarkSyntax.Proofs.Grammar.Sealed
/-!
# Nodes within a line

A look ahead for slices passes over every expression of a text without errors, and over the parts of
expressions other than the items of a slice and the entries of a dictionary, in which at least all brackets
are closed (`Shape.passes_of_allBound`). That follows from what they are made of: there are
tokens that the look ahead does not count and nodes that it passes over, and maybe brackets after them
(`Form.closed`); only a lambda has a colon of its own.

So what stands in brackets after an expression shows that they make what was seen before it was read
(`endsBrackets_of_items`, `endsBrackets_of_expression`).
-/

set_option autoImplicit false

namespace StarlarkSyntax

open Layout (Piece)
open scoped Computability
open Grammar

/-- Is it the kind of an expression, or of a part of one that has no colon of its own? -/
def NodeKind.isLight : NodeKind → Bool
  | .argumentList | .argumentExpression | .namedArgumentExpression | .starArgumentExpression
  | .doubleStarExpression | .emptyExpression | .parameterList | .mandatoryParameter
  | .optionalParameter | .variadicParameter | .keywordVariadicParameter => true
  | kind => kind.isExpression

namespace Alphabet

/-- What a look ahead for slices passes over, if it is well made. -/
def light : Alphabet where
  token := Shape.isSteady
  node := NodeKind.isLight

/-- Those whose brackets are closed, if they are well made. -/
def even : Alphabet where
  token kind := Shape.isSteady kind || kind == .colon
  node kind := kind.isLight || kind == .keyValueExpression || kind == .sliceItem

theorem even_has {shape : Shape} (has : light.has shape = true) : even.has shape = true := by
  cases shape with
  | token piece => exact Bool.or_eq_true_iff.2 (.inl has)
  | node kind message? children => exact Bool.or_eq_true_iff.2 (.inl (Bool.or_eq_true_iff.2 (.inl has)))

end Alphabet

namespace Form

open Shape

variable {form form' : Language Shape}

theorem lettered_le_even : lettered .light ≤ lettered .even :=
  lettered_mono fun _ => Alphabet.even_has

theorem expression_le_light : expression ≤ lettered .light :=
  expression_le_lettered fun kind is => by cases kind <;> first | rfl | cases is

theorem base_le_light : base ≤ lettered .light :=
  base_le_expression.trans expression_le_light

theorem callee_le_light : callee ≤ lettered .light :=
  callee_le_expression.trans expression_le_light

/-- A look ahead for slices counts no operator. -/
theorem operator_le_light : operator ≤ lettered .light := by
  rintro _ ⟨pieces, rfl, is⟩
  have steady : ∀ kind ∈ pieces.map Prod.fst, isSteady kind = true := by
    obtain ⟨level, is⟩ := Option.isSome_iff_exists.1 is
    generalize pieces.map Prod.fst = kinds at is
    unfold operatorLevel? at is
    split at is <;> simp_all [isSteady]
  exact List.forall_mem_map.2 fun piece mem => steady piece.1 (List.mem_map_of_mem mem)

/-! ## What nodes within a line are made of -/

/-- Something in brackets in which all brackets are closed. -/
def even : Language Shape :=
  {made | ∃ delimiter, made ∈ bracketed delimiter (lettered .even)}

/-- What a look ahead for slices passes over, and maybe brackets after it. -/
def closed : Language Shape :=
  lettered .light * optional even

theorem le_closed (le : form ≤ lettered .light) : form ≤ closed :=
  fun _ mem => mul_optional_of (le mem)

theorem mul_bracketed_le_closed {delimiter : Delimiter} (le : form ≤ lettered .light)
    (le' : form' ≤ lettered .even) : form * bracketed delimiter form' ≤ closed := by
  refine mul_le_mul' le fun _ mem => optional_of ⟨delimiter, ?_⟩
  exact mul_le_mul' (mul_le_mul' le_rfl le') le_rfl mem

theorem bracketed_le_closed {delimiter : Delimiter} (le : form ≤ lettered .even) :
    bracketed delimiter form ≤ closed := by
  rw [← one_mul (bracketed delimiter form)]
  exact mul_bracketed_le_closed one_le_such le

theorem form_le_closed {kind : NodeKind} (light : kind.isLight = true) (other : kind ≠ .lambdaExpression) :
    kind.form ≤ closed := by
  have expression_le_even : expression ≤ lettered .even := expression_le_light.trans lettered_le_even
  have parameters_le : parameters ≤ lettered .light := by
    unfold parameters parameter
    apply_rules [listed_le_such, add_le, token_le_lettered, node_le_lettered, rfl]
  have clauses_le : clauses ≤ lettered .light := by
    unfold clauses clause condition
    apply_rules [mul_le_such, kstar_le_such, token_le_lettered, expression_le_light, rfl]
  have clauses_le_even : clauses ≤ lettered .even := clauses_le.trans lettered_le_even
  cases kind with
  | lambdaExpression => exact absurd rfl other
  | argumentExpression => exact add_le (le_closed expression_le_light) (le_closed (bare_le_lettered rfl))
  | binaryExpression =>
      exact le_closed (mul_le_such (mul_le_such expression_le_light operator_le_light) expression_le_light)
  | mandatoryParameter | optionalParameter | variadicParameter | keywordVariadicParameter
  | namedArgumentExpression | starArgumentExpression | callExpression | conditionalExpression
  | doubleStarExpression | emptyExpression | floatLiteralExpression | integerLiteralExpression
  | prefixExpression | referenceExpression | targetExpression | starExpression | stringLiteralExpression =>
      refine le_closed ?_
      dsimp only [NodeKind.form, name, sign]
      apply_rules [one_le_such, mul_le_such, optional_le_such, token_le_lettered, oneOf_le_lettered, node_le_lettered,
        base_le_light, callee_le_light, expression_le_light, rfl]
  | argumentList | dictLiteralExpression =>
      refine bracketed_le_closed ?_
      dsimp only [argument, entry]
      apply_rules [listed_le_such, add_le, token_le_lettered, node_le_lettered, rfl]
  | parenthesizedExpression => exact bracketed_le_closed expression_le_even
  | listLiteralExpression =>
      exact bracketed_le_closed (listed_le_such expression_le_even (token_le_lettered rfl) expression_le_even)
  | listCompExpression => exact bracketed_le_closed (mul_le_such expression_le_even clauses_le_even)
  | dictCompExpression =>
      refine bracketed_le_closed (mul_le_such ?_ clauses_le_even)
      exact add_le (node_le_lettered rfl) expression_le_even
  | sliceExpression =>
      refine mul_bracketed_le_closed base_le_light ?_
      exact mul_le_such (separated_le_such (node_le_lettered rfl) (token_le_lettered rfl) (node_le_lettered rfl))
        (optional_le_such (token_le_lettered rfl))
  | subscriptionExpression => exact mul_bracketed_le_closed base_le_light expression_le_even
  | parameterList =>
    exact add_le (le_closed parameters_le) (bracketed_le_closed (parameters_le.trans lettered_le_even))
  | generatorExpression =>
      refine add_le (bracketed_le_closed ?_) (le_closed (mul_le_such expression_le_light clauses_le))
      exact mul_le_such (optional_le_such expression_le_even) clauses_le_even
  | tupleExpression =>
      refine add_le (bracketed_le_closed one_le_such) (le_closed ?_)
      apply_rules [mul_le_such, token_le_lettered, listed_le_such, expression_le_light, rfl]
  | _ => cases light

theorem form_le_even {kind : NodeKind} (is : kind = .keyValueExpression ∨ kind = .sliceItem) :
    kind.form ≤ lettered .even := by
  have expression_le : expression ≤ lettered .even := expression_le_light.trans lettered_le_even
  have bound_le : bound ≤ lettered .even := optional_le_such (add_le expression_le (node_le_lettered rfl))
  rcases is with rfl | rfl
  · exact mul_le_such (mul_le_such expression_le (token_le_lettered rfl)) expression_le
  · refine add_le expression_le ?_
    apply_rules [mul_le_such, optional_le_such, token_le_lettered, rfl]

end Form

/-! ## What a look ahead for slices passes over -/

namespace Shape

open Form

variable {made : List Shape}

/-- Does a look ahead for slices pass over a shape of a sort that it should pass over? -/
structure Passes (shape : Shape) : Prop where
  light : Alphabet.light.has shape = true → Sealed [shape]
  even : Alphabet.even.has shape = true → Balanced [shape]

theorem sealed_of_passes (passes : ∀ shape ∈ made, Passes shape) (mem : made ∈ lettered .light) :
    Sealed made :=
  Joining.of_forall fun shape here => (passes shape here).light (mem shape here)

theorem balanced_of_passes (passes : ∀ shape ∈ made, Passes shape) (mem : made ∈ lettered .even) :
    Balanced made :=
  Joining.of_forall fun shape here => (passes shape here).even (mem shape here)

theorem sealed_of_closed (passes : ∀ shape ∈ made, Passes shape) (mem : made ∈ closed) : Sealed made := by
  obtain ⟨before, light, after, even, rfl⟩ := mem
  obtain ⟨passes, passes'⟩ := List.forall_mem_append.1 passes
  refine (sealed_of_passes passes light).append ?_
  rcases even with none | ⟨delimiter, _, ⟨_, ⟨body, rfl⟩, inside, even, rfl⟩, _, ⟨body', rfl⟩, rfl⟩
  · exact (show after = [] from none) ▸ .nil
  · refine sealed_enclosed (balanced_of_passes (fun shape here => passes' shape ?_) even)
    exact List.mem_append_left _ (List.mem_cons_of_mem _ here)

theorem passes_of_children {kind : NodeKind} {message? : Option String} {children : List Shape}
    (passes : ∀ shape ∈ children, Passes shape) (formed : children ∈ kind.form) :
    Passes (node kind message? children) := by
  have light (is : kind.isLight = true) : Sealed [node kind message? children] := by
    by_cases lambda : kind = .lambdaExpression
    · subst lambda
      obtain ⟨_, ⟨_, ⟨_, ⟨word, rfl⟩, list, parameters, rfl⟩, _, ⟨colon, rfl⟩, rfl⟩, body, value, rfl⟩ :=
        formed
      refine sealed_lambda (sealed_of_passes (fun shape mem => passes shape (by simp [mem])) ?_)
        (sealed_of_passes (fun shape mem => passes shape (by simp [mem])) (expression_le_light value))
      exact nodeOf_le_lettered rfl parameters
    · exact (sealed_of_closed passes (form_le_closed is lambda formed)).node
  refine ⟨light, fun even => ?_⟩
  rcases Bool.or_eq_true_iff.1 even with is | item
  · rcases Bool.or_eq_true_iff.1 is with is | entry
    · exact (light is).toBalanced
    · exact (balanced_of_passes passes (form_le_even (.inl (beq_iff_eq.1 entry)) formed)).node
  · exact (balanced_of_passes passes (form_le_even (.inr (beq_iff_eq.1 item)) formed)).node

theorem passes_token (piece : Piece) : Passes (token piece) := by
  refine ⟨fun light => .token light, fun even => ?_⟩
  rcases Bool.or_eq_true_iff.1 even with steady | colon
  · exact (Sealed.token steady).toBalanced
  · obtain ⟨kind, body⟩ := piece
    obtain rfl : kind = .colon := beq_iff_eq.1 colon
    exact .colon body

/-- Well made shapes are what their sort says. -/
theorem passes_of_allBound (bound : AllBound made) : ∀ shape ∈ made, Passes shape :=
  AllBound.induction passes_token
    (fun _ _ _ wellMade passes => passes_of_children passes wellMade.wellFormed) made bound

/-! ## Brackets after expressions -/

variable {inside : List Shape}

theorem sliceItem_le : Form.node .sliceItem ≤ such (IfEach Bound SliceItems) := by
  rintro _ ⟨children, rfl⟩ each
  obtain ⟨wellMade, inner⟩ := List.forall_mem_singleton.1 each
  have passes := passes_of_allBound inner
  have expression_le : Form.expression ≤ lettered .even := expression_le_light.trans lettered_le_even
  have bound_le : bound ≤ lettered .even := optional_le_such (add_le expression_le (node_le_lettered rfl))
  rcases wellMade.wellFormed with value |
    ⟨_, ⟨_, ⟨front, first, _, ⟨body, rfl⟩, rfl⟩, last, second, rfl⟩, step, third, rfl⟩
  · exact (sealed_of_passes passes (expression_le_light value)).node.sliceItems
  · have before : Balanced front :=
      balanced_of_passes (fun shape mem => passes shape (by simp [mem])) (bound_le first)
    have behind : Balanced (last ++ step) := by
      refine balanced_of_passes (fun shape mem => passes shape ?_)
        (mul_le_such bound_le ?_ (Language.append_mem_mul second third))
      · simpa [or_assoc] using Or.inr (Or.inr (List.mem_append.1 mem))
      · exact optional_le_such (mul_le_such (token_le_lettered rfl) (optional_le_such expression_le))
    simpa using sliceItems_of_colon before body behind

theorem items_le : items ≤ such (IfEach Bound SliceItems) := by
  have comma_le : Form.token .comma ≤ such (IfEach Bound SliceItems) := by
    rintro _ ⟨body, rfl⟩ -
    exact (Sealed.token rfl).sliceItems
  exact mul_le_such (separated_le_such sliceItem_le comma_le sliceItem_le) (optional_le_such comma_le)

/-- A slice holds what was seen when it was looked for. -/
theorem endsBrackets_of_items {body : List Char} {rest : List Piece} (bound : AllBound inside)
    (mem : inside ∈ items)
    (seen : hasSliceColon (leavesAll inside ++ (.closing .bracket, body) :: rest) 0 0 = true) :
    EndsBrackets .sliceExpression (inside ++ [.token (.closing .bracket, body)]) :=
  endsBrackets_slice (items_le mem ((allBound_iff _).1 bound)) seen

theorem endsBrackets_of_expression (bound : AllBound inside) (mem : inside ∈ Form.expression) (body : List Char) :
    EndsBrackets .subscriptionExpression (inside ++ [.token (.closing .bracket, body)]) :=
  (sealed_of_passes (passes_of_allBound bound) (expression_le_light mem)).endsBrackets body

end Shape
end StarlarkSyntax
