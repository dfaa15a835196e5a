/-
Module: CLike.Token
Layer: Text
Purpose: Tokens, their values and the two ways of comparing them: with and without their place.
Main exports: Literal, Literal.display, Token, Token.text, Token.spelling, Token.unplaced
-/
import CLike.Kind
import CLike.Position

namespace CLike

/-- The value that a token carries: a machine integer, a piece of text, or one character. -/
inductive Literal where
  | integer (value : Int32)
  | text (value : String)
  | character (value : Char)
deriving Repr, DecidableEq

namespace Literal

/-- How a value is displayed: integers in decimal, texts and characters bare. -/
def display : Literal → String
  | .integer value => value.toInt.repr
  | .text value => value
  | .character value => value.toString

end Literal

/-- A classified piece of source text.  Class and value are independent of each other: only tokens
that come from a text are sure to carry a value that fits their class. -/
structure Token where
  kind : Kind
  literal : Literal
  position : Position
deriving Repr, DecidableEq

namespace Token

/-- A token whose value is a text. -/
def ofText (kind : Kind) (text : String) : Token :=
  ⟨kind, .text text, .unplaced⟩

/-- The name of a variable or function. -/
def identifier (name : String) : Token := ofText .identifier name

/-- An integer literal. -/
def integer (value : Int32) : Token := ⟨.integer, .integer value, .unplaced⟩

/-- A character literal. -/
def character (value : Char) : Token := ⟨.character, .character value, .unplaced⟩

/-- The displayed value of a token. -/
def text (token : Token) : String := token.literal.display

/-- How a token is written down: strings and characters between their delimiters, all else bare. -/
def spelling (token : Token) : String :=
  match token.kind with
  | .string => "\"" ++ token.text ++ "\""
  | .character => "'" ++ token.text ++ "'"
  | _ => token.text

/-- The token without its place. -/
def unplaced (token : Token) : Token := { token with position := .unplaced }

/-- `==` on tokens compares class and value: where a token was found does not make it a different
token.  Strict equality, places included, is `=`. -/
instance : BEq Token :=
  ⟨fun one two => one.kind == two.kind && one.literal == two.literal⟩

/-- Two tokens are alike exactly when they are the same once their places are forgotten. -/
theorem beq_iff_unplaced_eq {one two : Token} :
    (one == two) = true ↔ one.unplaced = two.unplaced := by
  cases one
  cases two
  simp [BEq.beq, unplaced]

instance : EquivBEq Token where
  rfl := beq_iff_unplaced_eq.mpr rfl
  symm same := beq_iff_unplaced_eq.mpr (beq_iff_unplaced_eq.mp same).symm
  trans first second :=
    beq_iff_unplaced_eq.mpr ((beq_iff_unplaced_eq.mp first).trans (beq_iff_unplaced_eq.mp second))

end Token

end CLike
