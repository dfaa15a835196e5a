/-
Module: CLike.Kind
Layer: Text
Purpose: The classes of words, marks and literals that the language is written in.
Main exports: Kind, Kind.label, Kind.ofLabel?, Kind.isType, Kind.isArithmetic
-/

namespace CLike

/-- The class of a token.  Keywords, types and operators have a class each; literals and names share
one per form.  `call` is the class of the name of a function call in a syntax tree and of no token
that is found in a text. -/
inductive Kind where
  | ifWord
  | elseWord
  | whileWord
  | inputWord
  | printWord
  | returnWord
  | breakWord
  | continueWord
  | intType
  | charType
  | voidType
  | equal
  | notEqual
  | lessOrEqual
  | greaterOrEqual
  | logicalAnd
  | logicalOr
  | plus
  | minus
  | star
  | slash
  | percent
  | assign
  | bang
  | ampersand
  | less
  | greater
  | bar
  | comma
  | leftParen
  | rightParen
  | leftBracket
  | rightBracket
  | leftBrace
  | rightBrace
  | semicolon
  | integer
  | character
  | string
  | identifier
  | call
deriving Repr, Inhabited, DecidableEq

namespace Kind

/-- Every class, in the order of their declaration. -/
def all : List Kind :=
  [ifWord, elseWord, whileWord, inputWord, printWord, returnWord, breakWord, continueWord,
   intType, charType, voidType,
   equal, notEqual, lessOrEqual, greaterOrEqual, logicalAnd, logicalOr,
   plus, minus, star, slash, percent, assign, bang, ampersand, less, greater, bar, comma,
   leftParen, rightParen, leftBracket, rightBracket, leftBrace, rightBrace, semicolon,
   integer, character, string, identifier, call]

/-- The name under which a class appears in a token listing. -/
def label : Kind → String
  | ifWord => "If"
  | elseWord => "Else"
  | whileWord => "While"
  | inputWord => "Input"
  | printWord => "Print"
  | returnWord => "Return"
  | breakWord => "Break"
  | continueWord => "Continue"
  | intType => "Int"
  | charType => "Char"
  | voidType => "Void"
  | equal => "Eq"
  | notEqual => "Neq"
  | lessOrEqual => "Leq"
  | greaterOrEqual => "Geq"
  | logicalAnd => "LAnd"
  | logicalOr => "LOr"
  | plus => "Add"
  | minus => "Sub"
  | star => "Star"
  | slash => "Div"
  | percent => "Mod"
  | assign => "Assign"
  | bang => "Bang"
  | ampersand => "Amp"
  | less => "Less"
  | greater => "Great"
  | bar => "Pipe"
  | comma => "Comma"
  | leftParen => "LParens"
  | rightParen => "RParens"
  | leftBracket => "LBracket"
  | rightBracket => "RBracket"
  | leftBrace => "LBrace"
  | rightBrace => "RBrace"
  | semicolon => "Semicolon"
  | integer => "Integer"
  | character => "Character"
  | string => "String"
  | identifier => "Identifier"
  | call => "FuncCall"

/-- Reads a label back. -/
def ofLabel? (text : String) : Option Kind :=
  all.find? fun kind => kind.label == text

/-- A label names its class. -/
theorem ofLabel?_label (kind : Kind) : ofLabel? kind.label = some kind := by
  cases kind <;> decide

/-- The classes that name a type. -/
def types : List Kind := [intType, charType, voidType]

/-- The binary operators, assignment apart.  They all bind equally tightly. -/
def arithmetic : List Kind :=
  [logicalOr, logicalAnd, less, greater, lessOrEqual, greaterOrEqual, equal, notEqual,
   plus, minus, star, slash, percent, bar, ampersand]

/-- Whether a declaration can start with this class. -/
def isType (kind : Kind) : Bool := types.contains kind

/-- Whether this class joins two factors. -/
def isArithmetic (kind : Kind) : Bool := arithmetic.contains kind

theorem isType_iff {kind : Kind} :
    kind.isType = true ↔ kind = intType ∨ kind = charType ∨ kind = voidType := by
  simp [isType, types]

/-- An assignment is no arithmetic. -/
theorem ne_assign_of_isArithmetic {kind : Kind} (operator : kind.isArithmetic = true) :
    kind ≠ assign := by
  rintro rfl
  exact absurd operator (by decide)

end Kind

end CLike
