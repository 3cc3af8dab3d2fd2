/-!
# Kinds of node

What a node of a syntax tree stands for: the whole file, something that does not fit the grammar, a
statement or a part of one, or an expression or a part of one.
-/

set_option autoImplicit false

namespace StarlarkSyntax

/-- What a node of a syntax tree stands for. -/
inductive NodeKind where
  /-- The root of every tree. -/
  | file
  /-- Something that does not fit the grammar, with a message. -/
  | error
  | assignmentStatement
  | augAssignmentStatement
  | breakStatement
  | continueStatement
  | expressionStatement
  | forStatement
  | ifStatement
  | loadStatement
  /-- A part of a `load` that gives a symbol another name. -/
  | namedLoadValue
  /-- A part of a `load` that is just a symbol. -/
  | stringLoadValue
  | passStatement
  | returnStatement
  /-- The body of a compound statement. -/
  | statementList
  | functionDeclaration
  | parameterList
  | mandatoryParameter
  | optionalParameter
  /-- A star, with or without a name. -/
  | variadicParameter
  /-- Two stars and a name. -/
  | keywordVariadicParameter
  | argumentList
  | argumentExpression
  | namedArgumentExpression
  /-- An argument after one or two stars. -/
  | starArgumentExpression
  | binaryExpression
  | callExpression
  | conditionalExpression
  | dictCompExpression
  /-- A dictionary or a set, which share the braces. -/
  | dictLiteralExpression
  | doubleStarExpression
  /-- A part of a slice that is left out. -/
  | emptyExpression
  | floatLiteralExpression
  | generatorExpression
  | integerLiteralExpression
  | keyValueExpression
  | lambdaExpression
  | listCompExpression
  | listLiteralExpression
  | parenthesizedExpression
  | prefixExpression
  /-- A name that is read. -/
  | referenceExpression
  | sliceExpression
  | sliceItem
  | starExpression
  /-- A literal of characters or of bytes. -/
  | stringLiteralExpression
  | subscriptionExpression
  /-- A name that is assigned to. -/
  | targetExpression
  | tupleExpression
deriving DecidableEq, Inhabited

namespace NodeKind

/-- Every kind. -/
def all : List NodeKind :=
  [file, error, assignmentStatement, augAssignmentStatement, breakStatement, continueStatement,
   expressionStatement, forStatement, ifStatement, loadStatement, namedLoadValue, stringLoadValue,
   passStatement, returnStatement, statementList, functionDeclaration, parameterList,
   mandatoryParameter, optionalParameter, variadicParameter, keywordVariadicParameter,
   argumentList, argumentExpression, namedArgumentExpression, starArgumentExpression,
   binaryExpression, callExpression, conditionalExpression, dictCompExpression,
   dictLiteralExpression, doubleStarExpression, emptyExpression, floatLiteralExpression,
   generatorExpression, integerLiteralExpression, keyValueExpression, lambdaExpression,
   listCompExpression, listLiteralExpression, parenthesizedExpression, prefixExpression,
   referenceExpression, sliceExpression, sliceItem, starExpression, stringLiteralExpression,
   subscriptionExpression, targetExpression, tupleExpression]

/-- The name of the kind in the outline of a tree. -/
def label : NodeKind → String
  | file => "File"
  | error => "Error"
  | assignmentStatement => "AssignmentStatement"
  | augAssignmentStatement => "AugAssignmentStatement"
  | breakStatement => "BreakStatement"
  | continueStatement => "ContinueStatement"
  | expressionStatement => "ExpressionStatement"
  | forStatement => "ForStatement"
  | ifStatement => "IfStatement"
  | loadStatement => "LoadStatement"
  | namedLoadValue => "NamedLoadValue"
  | stringLoadValue => "StringLoadValue"
  | passStatement => "PassStatement"
  | returnStatement => "ReturnStatement"
  | statementList => "StatementList"
  | functionDeclaration => "FunctionDeclaration"
  | parameterList => "ParameterList"
  | mandatoryParameter => "MandatoryParameter"
  | optionalParameter => "OptionalParameter"
  | variadicParameter => "VariadicParameter"
  | keywordVariadicParameter => "KeywordVariadicParameter"
  | argumentList => "ArgumentList"
  | argumentExpression => "ArgumentExpression"
  | namedArgumentExpression => "NamedArgumentExpression"
  | starArgumentExpression => "StarArgumentExpression"
  | binaryExpression => "BinaryExpression"
  | callExpression => "CallExpression"
  | conditionalExpression => "ConditionalExpression"
  | dictCompExpression => "DictCompExpression"
  | dictLiteralExpression => "DictLiteralExpression"
  | doubleStarExpression => "DoubleStarExpression"
  | emptyExpression => "EmptyExpression"
  | floatLiteralExpression => "FloatLiteralExpression"
  | generatorExpression => "GeneratorExpression"
  | integerLiteralExpression => "IntegerLiteralExpression"
  | keyValueExpression => "KeyValueExpression"
  | lambdaExpression => "LambdaExpression"
  | listCompExpression => "ListCompExpression"
  | listLiteralExpression => "ListLiteralExpression"
  | parenthesizedExpression => "ParenthesizedExpression"
  | prefixExpression => "PrefixExpression"
  | referenceExpression => "ReferenceExpression"
  | sliceExpression => "SliceExpression"
  | sliceItem => "SliceItem"
  | starExpression => "StarExpression"
  | stringLiteralExpression => "StringLiteralExpression"
  | subscriptionExpression => "SubscriptionExpression"
  | targetExpression => "TargetExpression"
  | tupleExpression => "TupleExpression"

/-- The kind that an outline calls by a label. -/
def ofLabel? (text : String) : Option NodeKind :=
  all.find? (·.label == text)

/-- Is this some kind of statement? -/
def isStatement : NodeKind → Bool
  | assignmentStatement | augAssignmentStatement | breakStatement | continueStatement
  | expressionStatement | forStatement | ifStatement | loadStatement | passStatement
  | returnStatement | functionDeclaration => true
  | _ => false

/-- Is this a literal? -/
def isLiteral : NodeKind → Bool
  | integerLiteralExpression | floatLiteralExpression | stringLiteralExpression => true
  | _ => false

theorem mem_all (kind : NodeKind) : kind ∈ all := by
  cases kind <;> decide

end NodeKind
end StarlarkSyntax
