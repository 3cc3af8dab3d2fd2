import StarlarkSyntax.Grammar.Expression
import StarlarkSyntax.Proofs.Print.Piece
/-!
# Expressions and how they are written

The syntax of expressions, and the shape of the tree that each of them has when it is written down.
What an expression looks like depends on its position. A position admits expressions from some level
up; any other expression is put in parentheses there (`Position.enclose`). A name also depends on
whether it is assigned to.

`Expr.nesting` counts the levels of nesting that are entered where an expression is read.
-/

set_option autoImplicit false

namespace StarlarkSyntax

/-! ## Operators -/

/-- A sign before an operand. -/
inductive Sign where
  | minus
  | plus
  | tilde
deriving DecidableEq

def Sign.kind : Sign → Kind
  | minus => .operator .minus
  | plus => .operator .plus
  | tilde => .operator .tilde

/-- An operator between two operands that stands on one of the levels of precedence. -/
inductive Binary where
  | disjunction
  | conjunction
  | equal
  | unequal
  | less
  | greater
  | lessEqual
  | greaterEqual
  | isIn
  | isNotIn
  | isSame
  | isNotSame
  | bitOr
  | bitXor
  | bitAnd
  | shiftLeft
  | shiftRight
  | add
  | subtract
  | multiply
  | divide
  | floorDivide
  | remainder
deriving DecidableEq

namespace Binary

/-- The tokens that an operator is written with. -/
def kinds : Binary → List Kind
  | disjunction => [.reserved .orWord]
  | conjunction => [.reserved .andWord]
  | equal => [.operator .equalEqual]
  | unequal => [.operator .bangEqual]
  | less => [.operator .less]
  | greater => [.operator .greater]
  | lessEqual => [.operator .lessEqual]
  | greaterEqual => [.operator .greaterEqual]
  | isIn => [.reserved .inWord]
  | isNotIn => [.reserved .notWord, .reserved .inWord]
  | isSame => [.reserved .isWord]
  | isNotSame => [.reserved .isWord, .reserved .notWord]
  | bitOr => [.operator .pipe]
  | bitXor => [.operator .caret]
  | bitAnd => [.operator .ampersand]
  | shiftLeft => [.operator .lessLess]
  | shiftRight => [.operator .greaterGreater]
  | add => [.operator .plus]
  | subtract => [.operator .minus]
  | multiply => [.operator .star]
  | divide => [.operator .slash]
  | floorDivide => [.operator .slashSlash]
  | remainder => [.operator .percent]

def level : Binary → Precedence
  | disjunction => .disjunction
  | conjunction => .conjunction
  | equal | unequal | less | greater | lessEqual | greaterEqual | isIn | isNotIn | isSame
  | isNotSame => .comparison
  | bitOr => .bitOr
  | bitXor => .bitXor
  | bitAnd => .bitAnd
  | shiftLeft | shiftRight => .shift
  | add | subtract => .additive
  | multiply | divide | floorDivide | remainder => .multiplicative

end Binary

/-! ## Levels -/

/-- A level of operands: that of a binary operator, or a tighter one. The word `not` has a level of
its own between two of them. -/
inductive Tier where
  | ladder (level : Precedence)
  | negation
  | sign
  | power
  | primary
deriving DecidableEq

namespace Tier

/-- The levels in their order. Below them are tuples, and choices together with lambdas. -/
def rank : Tier → Nat
  | ladder .disjunction => 2
  | ladder .conjunction => 3
  | negation => 4
  | ladder .comparison => 5
  | ladder .bitOr => 6
  | ladder .bitXor => 7
  | ladder .bitAnd => 8
  | ladder .shift => 9
  | ladder .additive => 10
  | ladder .multiplicative => 11
  | sign => 12
  | power => 13
  | primary => 14

/-- The next level that binds more. -/
def tighter : Tier → Tier
  | ladder .disjunction => ladder .conjunction
  | ladder .conjunction => negation
  | negation => ladder .comparison
  | ladder .comparison => ladder .bitOr
  | ladder .bitOr => ladder .bitXor
  | ladder .bitXor => ladder .bitAnd
  | ladder .bitAnd => ladder .shift
  | ladder .shift => ladder .additive
  | ladder .additive => ladder .multiplicative
  | ladder .multiplicative => sign
  | sign => power
  | power | primary => primary

theorem rank_tighter (level : Tier) (below : level ≠ .primary) :
    level.tighter.rank = level.rank + 1 := by
  cases level with
  | ladder level => cases level <;> rfl
  | primary => contradiction
  | _ => rfl

theorem rank_le (level : Tier) : level.rank ≤ primary.rank := by
  cases level with
  | ladder level => cases level <;> decide
  | _ => decide

theorem rank_injective {level level' : Tier} (same : level.rank = level'.rank) :
    level = level' := by
  cases level with
  | ladder level => cases level <;> cases level' with
    | ladder level' => cases level' <;> first | rfl | cases same
    | _ => cases same
  | _ => cases level' with
    | ladder level' => cases level' <;> cases same
    | _ => first | rfl | cases same

end Tier

/-- Where an expression stands. -/
inductive Position where
  /-- By itself, or in parentheses. -/
  | alone
  /-- Where one full expression is expected. -/
  | test
  /-- The range of a comprehension. -/
  | range
  /-- An item of such a range, or the body of a lambda that is one. -/
  | rangeItem
  /-- The last condition of a clause of a comprehension. -/
  | condition
  /-- What a comprehension or a loop assigns to. -/
  | targets
  /-- Beside an operator. -/
  | operand (level : Tier)
deriving DecidableEq

namespace Position

/-- What binds less is admitted only if it is a tuple or a lambda. -/
def rank : Position → Nat
  | alone | test => 1
  | range | rangeItem | condition => 2
  | targets => Tier.rank (.ladder .bitOr)
  | operand level => level.rank

/-- May a tuple stand there without parentheses? -/
def admitsTuple : Position → Bool
  | alone | range | targets => true
  | _ => false

/-- May a lambda stand there without parentheses? -/
def admitsLambda : Position → Bool
  | alone | test | range | rangeItem | condition => true
  | targets | operand _ => false

/-- Where the items of a tuple stand. -/
def item : Position → Position
  | range => rangeItem
  | targets => operand (.ladder .bitOr)
  | _ => test

/-- Where the body of a lambda stands. A condition after the range of a comprehension is none of the
body's. -/
def body : Position → Position
  | range | rangeItem => rangeItem
  | _ => test

end Position

/-! ## Expressions -/

mutual

inductive Expr where
  | name (name : Name)
  | literal (literal : Literal)
  | dotted (object : Expr) (name : Name)
  | call (function : Expr) (arguments : List Argument)
  | subscript (object index : Expr)
  /-- One of the items has a colon; those before it have none. -/
  | slice (object : Expr) (before : List Expr) (bounds : Bounds) (after : List SliceItem)
  | parenthesized (inner : Expr)
  | tuple (elements : List Expr)
  | list (elements : List Expr)
  | set (first : Expr) (others : List Expr)
  | dict (entries : List Entry)
  | listComprehension (element : Expr) (first : Clause) (others : List Clause)
  | dictComprehension (entry : Entry) (first : Clause) (others : List Clause)
  | power (base exponent : Expr)
  | signed (sign : Sign) (operand : Expr)
  | negation (operand : Expr)
  | binary (operator : Binary) (left right : Expr)
  | conditional (value condition otherwise : Expr)
  | lambda (parameters : List Parameter) (body : Expr)

/-- An argument of a call. -/
inductive Argument where
  | positional (value : Expr)
  | named (name : Name) (value : Expr)
  | star (value : Expr)
  | doubleStar (value : Expr)

/-- A parameter of a lambda or of a function. -/
inductive Parameter where
  | mandatory (name : Name)
  | optional (name : Name) (default : Expr)
  | variadic (name? : Option Name)
  | keywordVariadic (name : Name)

/-- Where a slice starts and stops and its step, any of which may be left out. -/
inductive Bounds where
  | pair (start? stop? : Option Expr)
  | triple (start? stop? step? : Option Expr)

inductive SliceItem where
  | index (value : Expr)
  | bounded (bounds : Bounds)

/-- A key and a value. -/
inductive Entry where
  | mk (key value : Expr)

/-- A `for` of a comprehension with its conditions. -/
inductive Clause where
  | mk (targets range : Expr) (conditions : List Expr)

end

/-- The expressions in an argument. -/
def Argument.parts : Argument → List Expr
  | .positional value | .named _ value | .star value | .doubleStar value => [value]

def Parameter.parts : Parameter → List Expr
  | .optional _ default => [default]
  | _ => []

def Bounds.parts : Bounds → List Expr
  | .pair start? stop? => start?.toList ++ stop?.toList
  | .triple start? stop? step? => start?.toList ++ stop?.toList ++ step?.toList

def SliceItem.parts : SliceItem → List Expr
  | .index value => [value]
  | .bounded bounds => bounds.parts

def Entry.parts : Entry → List Expr
  | .mk key value => [key, value]

def Clause.parts : Clause → List Expr
  | .mk targets range conditions => targets :: range :: conditions

namespace Expr

/-- The expressions right inside an expression. -/
def parts : Expr → List Expr
  | .name _ | .literal _ => []
  | .dotted object _ => [object]
  | .call function arguments => function :: arguments.flatMap Argument.parts
  | .subscript object index => [object, index]
  | .slice object before bounds after =>
    object :: before ++ bounds.parts ++ after.flatMap SliceItem.parts
  | .parenthesized inner => [inner]
  | .tuple elements | .list elements => elements
  | .set first others => first :: others
  | .dict entries => entries.flatMap Entry.parts
  | .listComprehension element first others =>
    element :: first.parts ++ others.flatMap Clause.parts
  | .dictComprehension entry first others =>
    entry.parts ++ first.parts ++ others.flatMap Clause.parts
  | .power left right | .binary _ left right => [left, right]
  | .signed _ operand | .negation operand => [operand]
  | .conditional value condition otherwise => [value, condition, otherwise]
  | .lambda parameters body => body :: parameters.flatMap Parameter.parts

/-- The level on which an expression stands. -/
def rank : Expr → Nat
  | tuple (_ :: _) => 0
  | conditional .. | lambda .. => 1
  | binary operator _ _ => (Tier.ladder operator.level).rank
  | negation _ => Tier.rank .negation
  | signed .. => Tier.rank .sign
  | power .. => Tier.rank .power
  | _ => Tier.rank .primary

/-- Does no point and no subscript follow the first name of a chain? -/
def isUnlinked : Expr → Bool
  | .dotted .. | .subscript .. | .slice .. => false
  | .call function _ => function.isUnlinked
  | _ => true

/-- Does no subscript follow the first name of a chain? -/
def isUnsubscripted : Expr → Bool
  | .subscript .. | .slice .. => false
  | .dotted object _ => object.isUnsubscripted
  | .call function _ => function.isUnsubscripted
  | _ => true

end Expr

namespace Position

/-- May an expression stand there without parentheses? -/
def admits (position : Position) (expr : Expr) : Bool :=
  match expr with
  | .tuple (_ :: _) => position.admitsTuple
  | .lambda .. => position.admitsLambda
  | expr => position.rank ≤ expr.rank

/-- The shape of an expression in a position, in parentheses if they are needed, given its shape in
the positions that admit it. -/
def enclose (position : Position) (expr : Expr) (shape : Position → Shape) : Shape :=
  if position.admits expr then shape position
  else .node .parenthesizedExpression none [.ofKind Grammar.lpar, shape .alone, .ofKind Grammar.rpar]

end Position

/-! ## Shapes -/

/-- The kind of node that a literal makes. -/
def Literal.nodeKind (literal : Literal) : NodeKind :=
  match literal.kind with
  | .int => .integerLiteralExpression
  | .float => .floatLiteralExpression
  | _ => .stringLiteralExpression

open Grammar Shape

mutual

/-- The shape of an expression in a position that admits it. -/
def Expr.inner (target : Bool) (position : Position) : Expr → Shape
  | .name name => .node (nameKind target) none [ofName name]
  | .literal literal =>
    .node literal.nodeKind none [.token (literal.kind, literal.spelling)]
  | .dotted object name =>
    .node (nameKind (target && object.isUnsubscripted)) none
      [(Position.operand .primary).enclose object fun position => object.inner false position,
        ofKind .dot, ofName name]
  | .call function arguments =>
    .node .callExpression none
      [(Position.operand .primary).enclose function fun position =>
          function.inner (target && function.isUnlinked) position,
        .node .argumentList none
          (ofKind lpar :: withCommas (arguments.map fun argument => argument.shape) ++ [ofKind rpar])]
  | .subscript object index =>
    .node .subscriptionExpression none
      [(Position.operand .primary).enclose object fun position => object.inner false position,
        ofKind lbracket, Position.alone.enclose index fun position => index.inner false position,
        ofKind rbracket]
  | .slice object before bounds after =>
    .node .sliceExpression none
      ((Position.operand .primary).enclose object (fun position => object.inner false position) ::
        ofKind lbracket ::
        withCommas
          (before.map (fun item => .node .sliceItem none
              [Position.test.enclose item fun position => item.inner false position]) ++
            .node .sliceItem none (bounds.shapes before.isEmpty after.isEmpty) ::
            after.map fun item => item.shape) ++
        [ofKind rbracket])
  | .parenthesized inner =>
    .node .parenthesizedExpression none
      [ofKind lpar, Position.alone.enclose inner fun position => inner.inner target position,
        ofKind rpar]
  | .tuple [] => .node .tupleExpression none [ofKind lpar, ofKind rpar]
  | .tuple (first :: others) =>
    .node .tupleExpression none
      (position.item.enclose first (fun position => first.inner target position) ::
        if others.isEmpty then [ofKind .comma]
        else others.flatMap fun item =>
          [ofKind .comma, position.item.enclose item fun position => item.inner target position])
  | .list elements =>
    .node .listLiteralExpression none
      (ofKind lbracket ::
        withCommas (elements.map fun element =>
          Position.test.enclose element fun position => element.inner target position) ++
        [ofKind rbracket])
  | .set first others =>
    .node .dictLiteralExpression none
      (ofKind lbrace ::
        withCommas (Position.test.enclose first (fun position => first.inner false position) ::
          others.map fun element =>
            Position.test.enclose element fun position => element.inner false position) ++
        [ofKind rbrace])
  | .dict entries =>
    .node .dictLiteralExpression none
      (ofKind lbrace :: withCommas (entries.map fun entry => entry.shape) ++ [ofKind rbrace])
  | .listComprehension element first others =>
    .node .listCompExpression none
      (ofKind lbracket ::
        Position.test.enclose element (fun position => element.inner target position) ::
        first.shapes ++ (others.flatMap fun clause => clause.shapes) ++ [ofKind rbracket])
  | .dictComprehension entry first others =>
    .node .dictCompExpression none
      (ofKind lbrace :: entry.shape ::
        first.shapes ++ (others.flatMap fun clause => clause.shapes) ++ [ofKind rbrace])
  | .power base exponent =>
    .node .binaryExpression none
      [(Position.operand .primary).enclose base fun position => base.inner target position,
        ofKind (.operator .starStar),
        (Position.operand .sign).enclose exponent fun position => exponent.inner target position]
  | .signed sign operand =>
    .node .prefixExpression none
      [ofKind sign.kind,
        (Position.operand .sign).enclose operand fun position => operand.inner target position]
  | .negation operand =>
    .node .prefixExpression none
      [ofKind (.reserved .notWord),
        (Position.operand .negation).enclose operand fun position => operand.inner target position]
  | .binary operator left right =>
    .node .binaryExpression none
      ((Position.operand (.ladder operator.level)).enclose left
          (fun position => left.inner target position) ::
        operator.kinds.map ofKind ++
        [(Position.operand (Tier.ladder operator.level).tighter).enclose right
          fun position => right.inner target position])
  | .conditional value condition otherwise =>
    .node .conditionalExpression none
      [(Position.operand (.ladder .disjunction)).enclose value
          fun position => value.inner target position,
        ofKind (.reserved .ifWord),
        (Position.operand (.ladder .disjunction)).enclose condition
          fun position => condition.inner target position,
        ofKind (.reserved .elseWord),
        Position.test.enclose otherwise fun position => otherwise.inner target position]
  | .lambda parameters body =>
    .node .lambdaExpression none
      [ofKind (.reserved .lambdaWord),
        .node .parameterList none
          (withCommas (parameters.map fun parameter => parameter.shape)),
        ofKind .colon,
        position.body.enclose body fun position => body.inner false position]
termination_by expr => sizeOf expr

def Argument.shape : Argument → Shape
  | .positional value =>
    .node .argumentExpression none
      [Position.test.enclose value fun position => value.inner false position]
  | .named name value =>
    .node .namedArgumentExpression none
      [ofName name, ofKind .equals,
        Position.test.enclose value fun position => value.inner false position]
  | .star value =>
    .node .starArgumentExpression none
      [ofKind (.operator .star),
        Position.test.enclose value fun position => value.inner false position]
  | .doubleStar value =>
    .node .starArgumentExpression none
      [ofKind (.operator .starStar),
        Position.test.enclose value fun position => value.inner false position]
termination_by argument => sizeOf argument

def Parameter.shape : Parameter → Shape
  | .mandatory name => .node .mandatoryParameter none [ofName name]
  | .optional name default =>
    .node .optionalParameter none
      [ofName name, ofKind .equals,
        Position.test.enclose default fun position => default.inner false position]
  | .variadic name? =>
    .node .variadicParameter none (ofKind (.operator .star) :: (name?.map ofName).toList)
  | .keywordVariadic name =>
    .node .keywordVariadicParameter none [ofKind (.operator .starStar), ofName name]
termination_by parameter => sizeOf parameter

/-- The shapes of the parts of an item of a slice. Where the first item starts is marked even if that
is left out, and so is where it stops, unless another item follows. -/
def Bounds.shapes (first last : Bool) : Bounds → List Shape
  | .pair start? stop? =>
    partShapes first start? ++ ofKind .colon :: partShapes (first && last) stop?
  | .triple start? stop? step? =>
    partShapes first start? ++ ofKind .colon :: partShapes first stop? ++
      ofKind .colon :: partShapes false step?
termination_by bounds => sizeOf bounds

/-- A part of an item of a slice. One that was left out may be marked by an empty node. -/
def partShapes (marked : Bool) : Option Expr → List Shape
  | none => if marked then [.node .emptyExpression none []] else []
  | some part => [Position.test.enclose part fun position => part.inner false position]
termination_by part? => sizeOf part?

def SliceItem.shape : SliceItem → Shape
  | .index value =>
    .node .sliceItem none [Position.test.enclose value fun position => value.inner false position]
  | .bounded bounds => .node .sliceItem none (bounds.shapes false false)
termination_by item => sizeOf item

def Entry.shape : Entry → Shape
  | .mk key value =>
    .node .keyValueExpression none
      [Position.test.enclose key fun position => key.inner false position, ofKind .colon,
        Position.test.enclose value fun position => value.inner false position]
termination_by entry => sizeOf entry

def Clause.shapes : Clause → List Shape
  | .mk targets range conditions =>
    [ofKind (.reserved .forWord),
      Position.targets.enclose targets fun position => targets.inner true position,
      ofKind (.reserved .inWord),
      Position.range.enclose range fun position => range.inner false position] ++
    conditionShapes conditions
termination_by clause => sizeOf clause

/-- The conditions of a clause. A lambda before the last one would take the next `if` for its own. -/
def conditionShapes : List Expr → List Shape
  | [] => []
  | [last] =>
    [ofKind (.reserved .ifWord), Position.condition.enclose last fun position =>
      last.inner false position]
  | condition :: next :: more =>
    [ofKind (.reserved .ifWord), (Position.operand (.ladder .disjunction)).enclose condition
      fun position => condition.inner false position] ++ conditionShapes (next :: more)
termination_by conditions => sizeOf conditions

end

/-- The shape of an expression in a position. -/
def Expr.shape (target : Bool) (position : Position) (expr : Expr) : Shape :=
  position.enclose expr fun position => expr.inner target position

theorem Position.enclose_inner (target : Bool) (position : Position) (expr : Expr) :
    position.enclose expr (fun position => expr.inner target position) =
      expr.shape target position := rfl

/-! ## Nesting -/

namespace Position

/-- The levels that are entered before an expression itself: one for a full expression. The items of
a tuple enter it for themselves. -/
def entry (position : Position) (expr : Expr) : Nat :=
  match expr with
  | .tuple (_ :: _) => if position = test then 1 else 0
  | _ => if position = alone ∨ position = test then 1 else 0

/-- The levels that an expression takes in a position, given those that it takes in the positions
that admit it. -/
def levels (position : Position) (expr : Expr) (levels : Position → Nat) : Nat :=
  position.entry expr +
    if position.admits expr then levels position else 1 + alone.entry expr + levels .alone

end Position

/-- The most of some numbers. -/
def most (levels : List Nat) : Nat := levels.foldr max 0

mutual

/-- The levels that are entered inside an expression, in a position that admits it. -/
def Expr.depth (position : Position) : Expr → Nat
  | .name _ | .literal _ => 0
  | .dotted object _ =>
    (Position.operand .primary).levels object fun position => object.depth position
  | .call function arguments =>
    max ((Position.operand .primary).levels function fun position => function.depth position)
      (1 + most (arguments.map fun argument => argument.depth))
  | .subscript object index =>
    max ((Position.operand .primary).levels object fun position => object.depth position)
      (Position.alone.levels index fun position => index.depth position)
  | .slice object before bounds after =>
    max ((Position.operand .primary).levels object fun position => object.depth position)
      (most (before.map (fun item => Position.test.levels item fun position => item.depth position) ++
        bounds.depth before.isEmpty after.isEmpty :: after.map fun item => item.depth))
  | .parenthesized inner => 1 + Position.alone.levels inner fun position => inner.depth position
  | .tuple [] => 1
  | .tuple (first :: others) =>
    most (position.item.levels first (fun position => first.depth position) ::
      others.map fun item => position.item.levels item fun position => item.depth position)
  | .list elements =>
    1 + most (elements.map fun element =>
      Position.test.levels element fun position => element.depth position)
  | .set first others =>
    1 + most (Position.test.levels first (fun position => first.depth position) ::
      others.map fun element => Position.test.levels element fun position => element.depth position)
  | .dict entries => 1 + most (entries.map fun entry => entry.depth)
  | .listComprehension element first others =>
    1 + most (Position.test.levels element (fun position => element.depth position) :: first.depth ::
      others.map fun clause => clause.depth)
  | .dictComprehension entry first others =>
    1 + most (entry.depth :: first.depth :: others.map fun clause => clause.depth)
  | .power base exponent =>
    max ((Position.operand .primary).levels base fun position => base.depth position)
      (1 + (Position.operand .sign).levels exponent fun position => exponent.depth position)
  | .signed _ operand =>
    1 + (Position.operand .sign).levels operand fun position => operand.depth position
  | .negation operand =>
    1 + (Position.operand .negation).levels operand fun position => operand.depth position
  | .binary operator left right =>
    max
      ((Position.operand (.ladder operator.level)).levels left fun position => left.depth position)
      ((Position.operand (Tier.ladder operator.level).tighter).levels right
        fun position => right.depth position)
  | .conditional value condition otherwise =>
    max
      ((Position.operand (.ladder .disjunction)).levels value fun position => value.depth position)
      (max
        ((Position.operand (.ladder .disjunction)).levels condition
          fun position => condition.depth position)
        (Position.test.levels otherwise fun position => otherwise.depth position))
  | .lambda parameters body =>
    max (most (parameters.map fun parameter => parameter.depth))
      (position.body.levels body fun position => body.depth position)
termination_by expr => sizeOf expr

def Argument.depth : Argument → Nat
  | .positional value | .named _ value | .star value | .doubleStar value =>
    Position.test.levels value fun position => value.depth position
termination_by argument => sizeOf argument

def Parameter.depth : Parameter → Nat
  | .optional _ default => Position.test.levels default fun position => default.depth position
  | _ => 0
termination_by parameter => sizeOf parameter

/-- A part that is left out is looked for, unless the next token shows that it is not there. -/
def Bounds.depth (first last : Bool) : Bounds → Nat
  | .pair start? stop? => max (partDepth first start?) (partDepth (first && last) stop?)
  | .triple start? stop? step? =>
    most [partDepth first start?, partDepth first stop?, partDepth false step?]
termination_by bounds => sizeOf bounds

def partDepth (marked : Bool) : Option Expr → Nat
  | none => if marked then 0 else 1
  | some part => Position.test.levels part fun position => part.depth position
termination_by part? => sizeOf part?

def SliceItem.depth : SliceItem → Nat
  | .index value => Position.test.levels value fun position => value.depth position
  | .bounded bounds => bounds.depth false false
termination_by item => sizeOf item

def Entry.depth : Entry → Nat
  | .mk key value =>
    max (Position.test.levels key fun position => key.depth position)
      (Position.test.levels value fun position => value.depth position)
termination_by entry => sizeOf entry

def Clause.depth : Clause → Nat
  | .mk targets range conditions =>
    most [Position.targets.levels targets fun position => targets.depth position,
      Position.range.levels range fun position => range.depth position, conditionDepth conditions]
termination_by clause => sizeOf clause

def conditionDepth : List Expr → Nat
  | [] => 0
  | [last] => Position.condition.levels last fun position => last.depth position
  | condition :: next :: more =>
    max ((Position.operand (.ladder .disjunction)).levels condition
      fun position => condition.depth position) (conditionDepth (next :: more))
termination_by conditions => sizeOf conditions

end

/-- The levels of nesting that are entered where an expression is read in a position. -/
def Expr.nesting (position : Position) (expr : Expr) : Nat :=
  position.levels expr fun position => expr.depth position

theorem Position.levels_depth (position : Position) (expr : Expr) :
    position.levels expr (fun position => expr.depth position) = expr.nesting position := rfl

/-! ## Writing -/

/-- An expression written on one line. -/
def Expr.print (expr : Expr) : List Char :=
  spaced (expr.shape false .alone).leaves

end StarlarkSyntax
