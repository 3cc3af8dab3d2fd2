import Mathlib.Computability.Language
import Mathlib.Order.CompletePartialOrder
import StarlarkSyntax.Proofs.Grammar.Binding
/-!
# What nodes are made of

The grammar of texts without errors. What a node of each kind is made of is said by a language of shapes
(`NodeKind.form`): its words are what the children of such a node may be, the ends of statements among
them.

Four of the forms are wider than one would think. The parentheses of a `load` may be empty, so that not
even a module is named there; those of a generator may begin with the word `for`, so that nothing is made
of the things that it goes through; a bare name that is called may be a target; and a suite on the line of
its colon goes on where the next line begins with a semicolon.
-/

set_option autoImplicit false

namespace StarlarkSyntax

open Layout (Piece)
open scoped Computability

/-- Is it the kind of an expression? The parts of other expressions, such as arguments, are none. -/
def NodeKind.isExpression : NodeKind → Bool
  | .binaryExpression | .callExpression | .conditionalExpression | .dictCompExpression
  | .dictLiteralExpression | .floatLiteralExpression | .generatorExpression | .integerLiteralExpression
  | .lambdaExpression | .listCompExpression | .listLiteralExpression | .parenthesizedExpression
  | .prefixExpression | .referenceExpression | .sliceExpression | .starExpression
  | .stringLiteralExpression | .subscriptionExpression | .targetExpression | .tupleExpression => true
  | _ => false

/-- Is it the kind of something in brackets, or of a tuple? -/
def NodeKind.isDisplay : NodeKind → Bool
  | .dictCompExpression | .dictLiteralExpression | .generatorExpression | .listCompExpression
  | .listLiteralExpression | .parenthesizedExpression | .tupleExpression => true
  | _ => false

/-- Is it the kind of a statement that holds no other statements? -/
def NodeKind.isSimple : NodeKind → Bool
  | .assignmentStatement | .augAssignmentStatement | .breakStatement | .continueStatement
  | .expressionStatement | .loadStatement | .passStatement | .returnStatement => true
  | _ => false

namespace Shape

/-- Is the shape that of a generator without parentheses of its own? -/
def isBare : Shape → Bool
  | node .generatorExpression _ (node _ _ _ :: _) => true
  | _ => false

/-- Is the shape one of an expression? A generator without parentheses is only an argument. -/
def isExpression : Shape → Bool
  | token _ => false
  | node kind message? children => kind.isExpression && !(node kind message? children).isBare

/-- Is the shape one of a name that is assigned to? -/
def isTarget : Shape → Bool
  | token _ => false
  | node kind _ _ => kind == .targetExpression

theorem isNode_of_isExpression {shape : Shape} (is : shape.isExpression = true) :
    ∃ kind message? children, shape = node kind message? children := by
  cases shape with
  | token piece => cases is
  | node kind message? children => exact ⟨kind, message?, children, rfl⟩

theorem tokenKind?_of_isExpression {shape : Shape} (is : shape.isExpression = true) :
    shape.tokenKind? = none := by
  obtain ⟨_, _, _, rfl⟩ := isNode_of_isExpression is
  rfl

end Shape

namespace Form

open Shape

/-- A token of a kind. -/
def token (kind : Kind) : Language Shape :=
  {made | ∃ body, made = [.token (kind, body)]}

/-- A token of one of some kinds. -/
def oneOf (kinds : List Kind) : Language Shape :=
  {made | ∃ kind ∈ kinds, made ∈ token kind}

/-- Any tokens. -/
def tokens : Language Shape :=
  {made | ∃ pieces : List Piece, made = pieces.map Shape.token}

/-- A node of a kind. -/
def node (kind : NodeKind) : Language Shape :=
  {made | ∃ children, made = [.node kind none children]}

/-- A node of a kind that is made of a form. -/
def nodeOf (kind : NodeKind) (form : Language Shape) : Language Shape :=
  {made | ∃ children ∈ form, made = [.node kind none children]}

/-- What may be left out. -/
def optional (form : Language Shape) : Language Shape :=
  1 + form

/-- Parts with a separator before each of them but the first. -/
def separated (first : Language Shape) (separator : Kind) (form : Language Shape) : Language Shape :=
  first * (token separator * form)∗

/-- Parts with commas between them, and maybe one after them. There may be none at all. -/
def listed (first form : Language Shape) : Language Shape :=
  optional (separated first .comma form * optional (token .comma))

/-- Something in brackets. -/
def bracketed (delimiter : Delimiter) (form : Language Shape) : Language Shape :=
  token (.opening delimiter) * form * token (.closing delimiter)

/-! ## Expressions -/

/-- An expression. -/
def expression : Language Shape :=
  {made | ∃ shape, made = [shape] ∧ shape.isExpression = true}

/-- An expression that is not a name that is assigned to. -/
def base : Language Shape :=
  {made | ∃ shape, made = [shape] ∧ shape.isExpression = true ∧ shape.isTarget = false}

/-- What a chain of links begins with. Where something is assigned to, it may be the name of a target. -/
def callee : Language Shape :=
  base + nodeOf .targetExpression (token .identifier)

/-- A generator without parentheses of its own. -/
def bare : Language Shape :=
  {made | ∃ shape, made = [shape] ∧ shape.isBare = true}

/-- A name, by itself or of something else. -/
def name : Language Shape :=
  optional (base * token .dot) * token .identifier

/-- The tokens of a binary operator. -/
def operator : Language Shape :=
  {made | ∃ pieces : List Piece, made = pieces.map Shape.token ∧
    (operatorLevel? (pieces.map Prod.fst)).isSome = true}

/-- What stands before an operand. -/
def sign : Language Shape :=
  oneOf [.reserved .notWord, .operator .plus, .operator .minus, .operator .tilde]

/-- An argument. -/
def argument : Language Shape :=
  node .argumentExpression + node .namedArgumentExpression + node .starArgumentExpression

/-- An entry of a dictionary. -/
def entry : Language Shape :=
  node .keyValueExpression + node .doubleStarExpression

/-- A condition of a comprehension. -/
def condition : Language Shape :=
  token (.reserved .ifWord) * expression

/-- A `for` of a comprehension with its conditions. -/
def clause : Language Shape :=
  token (.reserved .forWord) * expression * token (.reserved .inWord) * expression * condition∗

/-- All the clauses of a comprehension. -/
def clauses : Language Shape :=
  clause * clause∗

/-- Where an item of a slice begins or ends. -/
def bound : Language Shape :=
  optional (expression + node .emptyExpression)

/-- The items of a slice. -/
def items : Language Shape :=
  separated (node .sliceItem) .comma (node .sliceItem) * optional (token .comma)

/-! ## Parameters -/

/-- A parameter. -/
def parameter : Language Shape :=
  node .mandatoryParameter + node .optionalParameter + node .variadicParameter
    + node .keywordVariadicParameter

/-- The parameters of a function or of a lambda. -/
def parameters : Language Shape :=
  listed parameter parameter

/-- The list of the parameters of a function. -/
def signature : Language Shape :=
  nodeOf .parameterList (bracketed .parenthesis parameters)

/-! ## Statements -/

/-- What ends a statement. In a suite on the line of its colon, and at the end of the text, that is nothing. -/
def ending : Language Shape :=
  optional (token .semicolon) * optional (token .statementBreak)

/-- A string. -/
def string : Language Shape :=
  node .stringLiteralExpression

/-- What stands in the parentheses of a `load`: the module, and what is loaded from it. -/
def loaded : Language Shape :=
  listed string (node .stringLoadValue + node .namedLoadValue)

/-- The operator of an assignment that computes something. -/
def compound : Language Shape :=
  {made | ∃ operator, made ∈ token (.compoundAssign operator)}

/-- A statement that holds no other statements. -/
def simple : Language Shape :=
  {made | ∃ kind : NodeKind, kind.isSimple = true ∧ made ∈ node kind}

/-- A statement. -/
def statement : Language Shape :=
  {made | ∃ kind : NodeKind, kind.isStatement = true ∧ made ∈ node kind}

/-- Statements, and the ends of empty ones. -/
def statements : Language Shape :=
  (statement + token .statementBreak)∗

/-- The statements of an indented suite. -/
def block : Language Shape :=
  token .indent * statements

/-- The statements of a suite on the line of its colon. The end of the line is passed by the last of them,
or comes after a semicolon; and a semicolon at the beginning of the next line goes on with the suite. -/
def line : Language Shape :=
  simple * (token .semicolon * optional simple)∗ * optional (token .semicolon * token .statementBreak)

/-- A suite on the lines after its colon, or on the line of it. -/
def suite : Language Shape :=
  token .statementBreak * nodeOf .statementList block * optional (token .dedent)
    + nodeOf .statementList line

/-- A colon and a suite. -/
def body : Language Shape :=
  token .colon * suite

/-- A word, a condition and a suite. -/
def branch (word : Reserved) : Language Shape :=
  token (.reserved word) * expression * body

/-! ## Words -/

variable {first form form' : Language Shape} {separator kind : Kind} {made made' : List Shape}

theorem token_mem (kind : Kind) (body : List Char) : [.token (kind, body)] ∈ token kind :=
  ⟨body, rfl⟩

theorem oneOf_of_token {kinds : List Kind} (mem : made ∈ token kind) (one : kind ∈ kinds) :
    made ∈ oneOf kinds :=
  ⟨kind, one, mem⟩

theorem tokens_nil : [] ∈ tokens :=
  ⟨[], rfl⟩

theorem tokens_of_token (mem : made ∈ token kind) : made ∈ tokens := by
  obtain ⟨body, rfl⟩ := mem
  exact ⟨[(kind, body)], rfl⟩

theorem tokens_append (mem : made ∈ tokens) (mem' : made' ∈ tokens) : made ++ made' ∈ tokens := by
  obtain ⟨pieces, rfl⟩ := mem
  obtain ⟨pieces', rfl⟩ := mem'
  exact ⟨pieces ++ pieces', List.map_append.symm⟩

theorem node_mem (kind : NodeKind) (children : List Shape) : [.node kind none children] ∈ node kind :=
  ⟨children, rfl⟩

theorem nodeOf_le (kind : NodeKind) (form : Language Shape) : nodeOf kind form ≤ node kind := by
  rintro _ ⟨children, -, rfl⟩
  exact node_mem kind children

theorem expression_mem {shape : Shape} (is : shape.isExpression = true) : [shape] ∈ expression :=
  ⟨shape, rfl, is⟩

theorem expression_of_base (mem : made ∈ base) : made ∈ expression := by
  obtain ⟨shape, rfl, is, -⟩ := mem
  exact expression_mem is

theorem expression_of_callee (mem : made ∈ callee) : made ∈ expression := by
  rcases mem with base | ⟨children, -, rfl⟩
  · exact expression_of_base base
  · exact expression_mem rfl

theorem base_le_expression : base ≤ expression := fun _ => expression_of_base

theorem callee_le_expression : callee ≤ expression := fun _ => expression_of_callee

theorem optional_nil (form : Language Shape) : [] ∈ optional form :=
  .inl rfl

theorem optional_of (mem : made ∈ form) : made ∈ optional form :=
  .inr mem

theorem one_le_optional (form : Language Shape) : 1 ≤ optional form :=
  le_sup_left

theorem le_optional (form : Language Shape) : form ≤ optional form :=
  le_sup_right

/-- A name of something. -/
theorem name_of_dot (mem : made ∈ base * token .dot * token .identifier) : made ∈ name := by
  obtain ⟨first, dot, last, identifier, rfl⟩ := mem
  exact Language.append_mem_mul (optional_of dot) identifier

theorem bound_of_expression (mem : made ∈ optional expression) : made ∈ bound :=
  mem.imp id .inl

/-- Something may follow and is left out. -/
theorem mul_optional_of (mem : made ∈ form) : made ∈ form * optional form' := by
  rw [← List.append_nil made]
  exact Language.append_mem_mul mem (optional_nil _)

/-- Some more of what may be repeated. -/
theorem kstar_append (mem : made ∈ form∗) (mem' : made' ∈ form∗) : made ++ made' ∈ form∗ := by
  rw [← kstar_mul_kstar form]
  exact Language.append_mem_mul mem mem'

theorem kstar_of (mem : made ∈ form) : made ∈ form∗ :=
  (le_kstar : form ≤ form∗) mem

theorem compound_of_token {operator : Operator} (mem : made ∈ token (.compoundAssign operator)) :
    made ∈ compound :=
  ⟨operator, mem⟩

theorem simple_of {kind : NodeKind} (is : kind.isSimple = true) : nodeOf kind form ≤ simple :=
  fun _ mem => ⟨kind, is, nodeOf_le kind form mem⟩

theorem statement_of {kind : NodeKind} (is : kind.isStatement = true) : nodeOf kind form ≤ statement :=
  fun _ mem => ⟨kind, is, nodeOf_le kind form mem⟩

theorem statement_of_simple : simple ≤ statement := by
  rintro _ ⟨kind, is, mem⟩
  refine ⟨kind, ?_, mem⟩
  cases kind <;> first | rfl | cases is

theorem break_le : token .statementBreak ≤ statements :=
  le_sup_right.trans le_kstar

theorem optional_statement_le : optional statement ≤ statements :=
  sup_le one_le_kstar (le_sup_left.trans le_kstar)

theorem ending_nil : [] ∈ ending :=
  Language.append_mem_mul (optional_nil _) (optional_nil _)

theorem ending_of_break (mem : made ∈ token .statementBreak) : made ∈ ending :=
  Language.append_mem_mul (optional_nil _) (optional_of mem)

theorem ending_of_both (mem : made ∈ token .semicolon * token .statementBreak) : made ∈ ending := by
  obtain ⟨semicolon, first, lineEnd, second, rfl⟩ := mem
  exact Language.append_mem_mul (optional_of first) (optional_of second)

theorem ending_of_semicolon (mem : made ∈ token .semicolon) : made ∈ ending :=
  mul_optional_of (optional_of mem)

theorem separated_of_first (mem : made ∈ first) : made ∈ separated first separator form := by
  rw [← List.append_nil made]
  exact Language.append_mem_mul mem (Language.nil_mem_kstar _)

/-- One more part after a separator. -/
theorem separated_append (mem : made ∈ separated first separator form)
    (more : made' ∈ token separator * form) : made ++ made' ∈ separated first separator form := by
  have all := Language.append_mem_mul mem more
  rw [separated, mul_assoc] at all
  exact mul_le_mul_right kstar_mul_le_kstar first all

/-- Where a separator comes last, one more part may follow, as it may where there is nothing yet. -/
theorem separated_of_begun (mem : made ∈ optional (separated form separator form * token separator))
    (more : made' ∈ form) : made ++ made' ∈ separated form separator form := by
  rcases mem with none | ⟨parts, several, last, separator, rfl⟩
  · rw [show made = [] from none]
    exact separated_of_first more
  · rw [List.append_assoc]
    exact separated_append several (Language.append_mem_mul separator more)

theorem listed_nil (first form : Language Shape) : [] ∈ listed first form :=
  optional_nil _

theorem listed_of_separated (mem : made ∈ separated first .comma form) : made ∈ listed first form :=
  optional_of (mul_optional_of mem)

theorem listed_of_comma (mem : made ∈ separated first .comma form) (comma : made' ∈ token .comma) :
    made ++ made' ∈ listed first form :=
  optional_of (Language.append_mem_mul mem (optional_of comma))

theorem listed_of_begun (mem : made ∈ optional (separated form .comma form * token .comma)) :
    made ∈ listed form form := by
  rcases mem with none | ⟨parts, several, comma, last, rfl⟩
  · exact (show made = [] from none) ▸ listed_nil form form
  · exact listed_of_comma several last

theorem bracketed_mono {delimiter : Delimiter} (le : form ≤ form') :
    bracketed delimiter form ≤ bracketed delimiter form' :=
  mul_le_mul' (mul_le_mul' le_rfl le) le_rfl

theorem bare_of (mem : made ∈ expression * clauses) : [.node .generatorExpression none made] ∈ bare := by
  obtain ⟨_, ⟨shape, rfl, is⟩, others, -, rfl⟩ := mem
  obtain ⟨kind, message?, children, rfl⟩ := isNode_of_isExpression is
  exact ⟨_, rfl, rfl⟩

end Form

open Form in
/-- What a node of a kind is made of. -/
def NodeKind.form : NodeKind → Language Shape
  | .file => statements
  | .error => 0
  -- Statements.
  | .assignmentStatement =>
    expression * token .equals * separated expression .equals expression * ending
  | .augAssignmentStatement => expression * compound * expression * ending
  | .breakStatement => token (.reserved .breakWord) * ending
  | .continueStatement => token (.reserved .continueWord) * ending
  | .expressionStatement => expression * ending
  | .forStatement =>
    token (.reserved .forWord) * expression * token (.reserved .inWord) * expression * body
  | .ifStatement =>
    branch .ifWord * (branch .elifWord)∗ * optional (token (.reserved .elseWord) * body)
  | .loadStatement => token (.reserved .loadWord) * bracketed .parenthesis loaded * ending
  | .namedLoadValue => token .identifier * token .equals * string
  | .stringLoadValue => string
  | .passStatement => token (.reserved .passWord) * ending
  | .returnStatement => token (.reserved .returnWord) * optional expression * ending
  | .statementList => block + line
  | .functionDeclaration => token (.reserved .defWord) * token .identifier * signature * body
  | .parameterList => parameters + bracketed .parenthesis parameters
  | .mandatoryParameter => token .identifier
  | .optionalParameter => token .identifier * token .equals * expression
  | .variadicParameter => token (.operator .star) * optional (token .identifier)
  | .keywordVariadicParameter => token (.operator .starStar) * token .identifier
  -- Expressions and their parts.
  | .argumentList => bracketed .parenthesis (listed argument argument)
  | .argumentExpression => expression + bare
  | .namedArgumentExpression => token .identifier * token .equals * expression
  | .starArgumentExpression => oneOf [.operator .star, .operator .starStar] * expression
  | .binaryExpression => expression * operator * expression
  | .callExpression => callee * node .argumentList
  | .conditionalExpression =>
    expression * token (.reserved .ifWord) * expression * token (.reserved .elseWord) * expression
  | .dictCompExpression => bracketed .brace ((node .keyValueExpression + expression) * clauses)
  | .dictLiteralExpression => bracketed .brace (listed entry entry + listed expression expression)
  | .doubleStarExpression => token (.operator .starStar) * expression
  | .emptyExpression => 1
  | .floatLiteralExpression => token .float
  | .generatorExpression => bracketed .parenthesis (optional expression * clauses) + expression * clauses
  | .integerLiteralExpression => token .int
  | .keyValueExpression => expression * token .colon * expression
  | .lambdaExpression =>
    token (.reserved .lambdaWord) * nodeOf .parameterList parameters * token .colon * expression
  | .listCompExpression => bracketed .bracket (expression * clauses)
  | .listLiteralExpression => bracketed .bracket (listed expression expression)
  | .parenthesizedExpression => bracketed .parenthesis expression
  | .prefixExpression => sign * expression
  | .referenceExpression | .targetExpression => name
  | .sliceExpression => base * bracketed .bracket items
  | .sliceItem =>
    expression + bound * token .colon * bound * optional (token .colon * optional expression)
  | .starExpression => token (.operator .star) * expression
  | .stringLiteralExpression => oneOf [.string, .bytes]
  | .subscriptionExpression => base * bracketed .bracket expression
  | .tupleExpression => bracketed .parenthesis 1 + expression * token .comma * listed expression expression

end StarlarkSyntax
