/-
Module: CLike.Node.Alike
Layer: Trees
Purpose: Comparing syntax trees up to the places of their tokens.
Main exports: Node.alike, Node.unplaced
-/
import CLike.Node

namespace CLike.Node

mutual

/-- Whether two trees have the same shape and, node for node, tokens that are the same up to their
places. -/
def alike : Node → Node → Bool
  | leaf one, leaf two => one == two
  | callNamed one arguments, callNamed two others => one == two && alikeEach arguments others
  | operation one left right, operation two otherLeft otherRight =>
    one == two && alike left otherLeft && alike right otherRight
  | variableDeclaration one type, variableDeclaration two other => one == two && type == other
  | functionDeclaration one type parameters, functionDeclaration two other others =>
    one == two && type == other && parameters == others
  | block one statements, block two others => one == two && alikeEach statements others
  | _, _ => false

/-- Whether two lists of trees are alike, tree by tree. -/
def alikeEach : List Node → List Node → Bool
  | [], [] => true
  | one :: rest, two :: others => alike one two && alikeEach rest others
  | _, _ => false

end

/-- `==` on trees ignores the places of their tokens, as it does on tokens. -/
instance : BEq Node := ⟨alike⟩

mutual

/-- The tree with the places of all its tokens forgotten. -/
def unplaced : Node → Node
  | leaf token => .leaf token.unplaced
  | callNamed name arguments => .callNamed name.unplaced (unplacedEach arguments)
  | operation operator left right =>
    .operation operator.unplaced (unplaced left) (unplaced right)
  | variableDeclaration name type => .variableDeclaration name.unplaced type.unplaced
  | functionDeclaration name type parameters =>
    .functionDeclaration name.unplaced type.unplaced (parameters.map Token.unplaced)
  | block token statements => .block token.unplaced (unplacedEach statements)

/-- Some trees with the places of all their tokens forgotten. -/
def unplacedEach : List Node → List Node
  | [] => []
  | node :: rest => unplaced node :: unplacedEach rest

end

end CLike.Node
