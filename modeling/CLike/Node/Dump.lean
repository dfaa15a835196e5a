/-
Module: CLike.Node.Dump
Layer: Trees
Purpose: Syntax trees written as symbolic expressions, such as `(= a (+ b 1))`.
Main exports: Node.dump, Node.dumpEach
-/
import CLike.Node

namespace CLike.Node

mutual

/-- A tree as a symbolic expression.  The text is written as it is: nothing in it is escaped. -/
def dump : Node → String
  | leaf token => token.spelling
  | callNamed name arguments => "(call " ++ name.text ++ dumpEach arguments ++ ")"
  | operation operator left right =>
    "(" ++ operator.text ++ " " ++ dump left ++ " " ++ dump right ++ ")"
  | variableDeclaration name type => "(var " ++ type.text ++ " " ++ name.text ++ ")"
  | functionDeclaration name type parameters =>
    "(fn " ++ type.text ++ " " ++ name.text ++ " (" ++
      " ".intercalate (parameters.map Token.text) ++ "))"
  | block _ statements => "(block" ++ dumpEach statements ++ ")"

/-- Some trees as symbolic expressions, each behind a space. -/
def dumpEach : List Node → String
  | [] => ""
  | node :: rest => " " ++ dump node ++ dumpEach rest

end

end CLike.Node
