import StarlarkSyntax.Text.Quoted
import StarlarkSyntax.Tree.Basic
/-!
# Outlines of trees

An outline shows a tree with one line for each node and each token that is not trivia, indented by
two spaces for each level. A node is shown by its kind, and its message in quotes if it has one; a
layout token by its name between angle brackets; any other token by its text in quotes. Carets are
left out, so that the same program at two places has the same outline.
-/

set_option autoImplicit false

namespace StarlarkSyntax.Tree

/-- What an outline shows of a node. -/
def nodeContent (kind : NodeKind) (message? : Option String) : List Char :=
  kind.label.toList ++
    match message? with
    | some message => ' ' :: Text.quote message.toList
    | none => []

/-- What an outline shows of a token; of trivia, nothing. -/
def tokenContent? (token : Token) : Option (List Char) :=
  if token.kind.isTrivia then none
  else if token.kind.isLayout then some ('<' :: (token.kind.name.toList ++ ['>']))
  else some (Text.quote token.body)

/-- What an outline shows of the top of a tree. -/
def content? : Tree → Option (List Char)
  | leaf token => tokenContent? token
  | node kind message? _ _ => some (nodeContent kind message?)

/-- A line of an outline at some level. -/
def outlineLine (depth : Nat) (content : List Char) : List Char :=
  List.replicate (2 * depth) ' ' ++ content ++ ['\n']

/-- The outline of a tree. -/
def outline (tree : Tree) : List Char :=
  tree.preorder.flatMap fun (depth, part) =>
    ((content? part).map (outlineLine depth)).getD []

end StarlarkSyntax.Tree
