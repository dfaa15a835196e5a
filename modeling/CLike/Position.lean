/-
Module: CLike.Position
Layer: Text
Purpose: Places in a source text, counted in lines and columns from one.
Main exports: Position, Position.unplaced, Position.text
-/

namespace CLike

/-- A place in a source text.  Lines and columns count from one, and a column is one character wide
whatever the character. -/
structure Position where
  line : Nat
  column : Nat
deriving Repr, DecidableEq

namespace Position

/-- The position of a token that was made by hand and not found in a text. -/
def unplaced : Position := ⟨0, 0⟩

instance : Inhabited Position := ⟨unplaced⟩

/-- A position is written `line:column`. -/
def text (position : Position) : String :=
  position.line.repr ++ ":" ++ position.column.repr

end Position

end CLike
