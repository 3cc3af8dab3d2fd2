import StarlarkSyntax.Token.Basic
import StarlarkSyntax.Tree.NodeKind
/-!
# Syntax trees

A tree has tokens for its leaves, trivia included, and nodes above them. The leaves of a tree from
left to right are its text, cut into tokens, so nothing of the text is lost in a tree. A node that
stands for something that does not fit the grammar has a message.

`leaves` and `text` are what a tree is made of. `preorder` is the walk that comes to each node
before its children, from which `nodes`, `errors` and the counts are taken.
-/

set_option autoImplicit false

namespace StarlarkSyntax

/-- A syntax tree: a token, or a node with its children. -/
inductive Tree where
  | leaf (token : Token)
  | node (kind : NodeKind) (message? : Option String) (span : Span) (children : List Tree)
deriving Inhabited

namespace Tree

/-- Where the tree stands in the text. -/
def span : Tree → Span
  | leaf token => token.span
  | node _ _ span _ => span

/-- The kind of a node. -/
def kind? : Tree → Option NodeKind
  | leaf _ => none
  | node kind _ _ _ => some kind

/-- The message of a node. -/
def message? : Tree → Option String
  | leaf _ => none
  | node _ message? _ _ => message?

/-- The token at a leaf. -/
def token? : Tree → Option Token
  | leaf token => some token
  | node .. => none

/-- What stands directly below a node. -/
def children : Tree → List Tree
  | leaf _ => []
  | node _ _ _ children => children

/-- Is the tree a node? -/
def isNode : Tree → Bool
  | leaf _ => false
  | node .. => true

/-- Does the node stand for something that does not fit the grammar? -/
def isError (tree : Tree) : Bool :=
  tree.kind? == some .error

/-- The span that some children cover; without children, the point at a caret. -/
def fitSpan (children : List Tree) (caret : Caret) : Span :=
  match children.head?, children.getLast? with
  | some first, some last => .ofCarets first.span.start last.span.stop
  | _, _ => .point caret

/-- A node that covers its children, or stands at a caret if it has none. -/
def ofChildren (kind : NodeKind) (message? : Option String) (children : List Tree)
    (caret : Caret) : Tree :=
  .node kind message? (fitSpan children caret) children

/-- A node without children for something that is missing at a caret. -/
def missing (message : String) (caret : Caret) : Tree :=
  .node .error (some message) (.point caret) []

/-! ## The parts of a tree -/

/-- The nodes directly below a node. -/
def childNodes (tree : Tree) : List Tree :=
  tree.children.filter isNode

/-- The tokens directly below a node. -/
def childTokens (tree : Tree) : List Token :=
  tree.children.filterMap token?

mutual

/-- The tokens of a tree, from left to right, before some others. -/
def leavesBefore (others : List Token) : Tree → List Token
  | leaf token => token :: others
  | node _ _ _ children => leavesOfAllBefore others children

/-- The tokens of several trees, from left to right, before some others. -/
def leavesOfAllBefore (others : List Token) : List Tree → List Token
  | [] => others
  | tree :: trees => leavesBefore (leavesOfAllBefore others trees) tree

end

/-- The tokens of a tree, from left to right. -/
def leaves (tree : Tree) : List Token :=
  leavesBefore [] tree

/-- The tokens of several trees, from left to right. -/
def leavesOfAll (trees : List Tree) : List Token :=
  leavesOfAllBefore [] trees

/-- The text that a tree covers. -/
def text (tree : Tree) : List Char :=
  Token.textOf tree.leaves

mutual

/-- Everything in a tree, each node before its children, with its distance from the root; and then
something else. -/
def preorderBefore (others : List (Nat × Tree)) (depth : Nat) : Tree → List (Nat × Tree)
  | leaf token => (depth, leaf token) :: others
  | node kind message? span children =>
    (depth, node kind message? span children) ::
      preorderOfAllBefore others (depth + 1) children

/-- Everything in several trees at the same distance from the root; and then something else. -/
def preorderOfAllBefore (others : List (Nat × Tree)) (depth : Nat) :
    List Tree → List (Nat × Tree)
  | [] => others
  | tree :: trees => preorderBefore (preorderOfAllBefore others depth trees) depth tree

end

/-- Everything in a tree, each node before its children, with its distance from the root, when the
tree itself is at some distance. -/
def preorderFrom (depth : Nat) (tree : Tree) : List (Nat × Tree) :=
  preorderBefore [] depth tree

/-- Everything in several trees at the same distance from the root. -/
def preorderOfAll (depth : Nat) (trees : List Tree) : List (Nat × Tree) :=
  preorderOfAllBefore [] depth trees

/-- Everything in a tree, each node before its children, with its distance from the root. -/
def preorder (tree : Tree) : List (Nat × Tree) :=
  preorderFrom 0 tree

/-- The nodes of a tree, each before its children. -/
def nodes (tree : Tree) : List Tree :=
  tree.preorder.filterMap fun (_, part) => if part.isNode then some part else none

/-- How many levels of nodes a tree has. -/
def levels (tree : Tree) : Nat :=
  tree.preorder.foldl
    (fun most (depth, part) => if part.isNode then max most (depth + 1) else most) 0

/-- The messages in a tree and where they belong, in the order of their nodes. -/
def errors (tree : Tree) : List (String × Span) :=
  tree.nodes.filterMap fun part => part.message?.map (·, part.span)

/-- The node that is reached from the root by the positions of nodes among nodes. -/
def descend? (tree : Tree) : List Nat → Option Tree
  | [] => some tree
  | index :: path =>
    match tree.childNodes[index]? with
    | some child => child.descend? path
    | none => none

/-! ## The walks, one node at a time

The walks carry what comes after them, so that they take no longer than the tree is big. The laws
here say what they come to without that. -/

mutual

theorem leavesBefore_eq (others : List Token) (tree : Tree) :
    leavesBefore others tree = leaves tree ++ others := by
  cases tree with
  | leaf token => simp [leaves, leavesBefore]
  | node kind message? span children =>
    simp only [leaves, leavesBefore]
    exact leavesOfAllBefore_eq others children

theorem leavesOfAllBefore_eq (others : List Token) (trees : List Tree) :
    leavesOfAllBefore others trees = leavesOfAll trees ++ others := by
  cases trees with
  | nil => simp [leavesOfAll, leavesOfAllBefore]
  | cons tree trees =>
    simp only [leavesOfAll, leavesOfAllBefore]
    rw [leavesBefore_eq _ tree, leavesBefore_eq (leavesOfAllBefore [] trees) tree,
      leavesOfAllBefore_eq others trees, leavesOfAll, List.append_assoc]

end

@[simp] theorem leaves_leaf (token : Token) : (leaf token).leaves = [token] := by
  simp [leaves, leavesBefore]

@[simp] theorem leaves_node (kind : NodeKind) (message? : Option String) (span : Span)
    (children : List Tree) : (node kind message? span children).leaves = leavesOfAll children := by
  simp [leaves, leavesBefore, leavesOfAll]

@[simp] theorem leavesOfAll_nil : leavesOfAll [] = [] := by
  simp [leavesOfAll, leavesOfAllBefore]

@[simp] theorem leavesOfAll_cons (tree : Tree) (trees : List Tree) :
    leavesOfAll (tree :: trees) = tree.leaves ++ leavesOfAll trees := by
  simp only [leavesOfAll, leavesOfAllBefore]
  exact leavesBefore_eq _ tree

@[simp] theorem leavesOfAll_append (s t : List Tree) :
    leavesOfAll (s ++ t) = leavesOfAll s ++ leavesOfAll t := by
  induction s with
  | nil => simp
  | cons tree s ih => simp [ih]

@[simp] theorem leaves_ofChildren (kind : NodeKind) (message? : Option String)
    (children : List Tree) (caret : Caret) :
    (ofChildren kind message? children caret).leaves = leavesOfAll children := by
  simp [ofChildren]

mutual

theorem preorderBefore_eq (others : List (Nat × Tree)) (depth : Nat) (tree : Tree) :
    preorderBefore others depth tree = preorderFrom depth tree ++ others := by
  cases tree with
  | leaf token => simp [preorderFrom, preorderBefore]
  | node kind message? span children =>
    simp only [preorderFrom, preorderBefore, List.cons_append]
    rw [preorderOfAllBefore_eq others (depth + 1) children, preorderOfAll]

theorem preorderOfAllBefore_eq (others : List (Nat × Tree)) (depth : Nat) (trees : List Tree) :
    preorderOfAllBefore others depth trees = preorderOfAll depth trees ++ others := by
  cases trees with
  | nil => simp [preorderOfAll, preorderOfAllBefore]
  | cons tree trees =>
    simp only [preorderOfAll, preorderOfAllBefore]
    rw [preorderBefore_eq _ depth tree,
      preorderBefore_eq (preorderOfAllBefore [] depth trees) depth tree,
      preorderOfAllBefore_eq others depth trees, preorderOfAll, List.append_assoc]

end

@[simp] theorem preorderFrom_leaf (depth : Nat) (token : Token) :
    preorderFrom depth (leaf token) = [(depth, leaf token)] := by
  simp [preorderFrom, preorderBefore]

@[simp] theorem preorderFrom_node (depth : Nat) (kind : NodeKind) (message? : Option String)
    (span : Span) (children : List Tree) :
    preorderFrom depth (node kind message? span children) =
      (depth, node kind message? span children) :: preorderOfAll (depth + 1) children := by
  simp [preorderFrom, preorderBefore, preorderOfAll]

@[simp] theorem preorderOfAll_nil (depth : Nat) : preorderOfAll depth [] = [] := by
  simp [preorderOfAll, preorderOfAllBefore]

@[simp] theorem preorderOfAll_cons (depth : Nat) (tree : Tree) (trees : List Tree) :
    preorderOfAll depth (tree :: trees) =
      preorderFrom depth tree ++ preorderOfAll depth trees := by
  simp only [preorderOfAll, preorderOfAllBefore]
  exact preorderBefore_eq _ depth tree

theorem preorderOfAll_append (depth : Nat) (trees more : List Tree) :
    preorderOfAll depth (trees ++ more) = preorderOfAll depth trees ++ preorderOfAll depth more := by
  induction trees with
  | nil => rw [List.nil_append, preorderOfAll_nil, List.nil_append]
  | cons tree trees ih =>
    rw [List.cons_append, preorderOfAll_cons, preorderOfAll_cons, ih, List.append_assoc]

end Tree
end StarlarkSyntax
