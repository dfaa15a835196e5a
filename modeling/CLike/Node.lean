/-
Module: CLike.Node
Layer: Trees
Purpose: Syntax trees.
Main exports: Node, Node.call, Node.token
-/
import CLike.Token

namespace CLike

/-- A syntax tree.  Each node has a token of its own: the operator, name or literal that it stands
for. -/
inductive Node where
  /-- A literal or the name of a variable. -/
  | leaf (token : Token)
  /-- A function call. -/
  | callNamed (name : Token) (arguments : List Node)
  /-- An arithmetic operation or an assignment. -/
  | operation (operator : Token) (left right : Node)
  /-- The declaration of a variable. -/
  | variableDeclaration (name declaredType : Token)
  /-- The declaration of a function. -/
  | functionDeclaration (name returnType : Token) (parameterTypes : List Token)
  /-- A block of statements. -/
  | block (token : Token) (statements : List Node)
deriving Repr

namespace Node

/-- A call of the function that a token names.  In the tree the name has the class of a call. -/
def call (callee : Token) (arguments : List Node) : Node :=
  .callNamed { callee with kind := .call } arguments

/-- The token that a node stands for. -/
def token : Node → Token
  | leaf token => token
  | callNamed name _ => name
  | operation operator _ _ => operator
  | variableDeclaration name _ => name
  | functionDeclaration name _ _ => name
  | block token _ => token

end Node

end CLike
