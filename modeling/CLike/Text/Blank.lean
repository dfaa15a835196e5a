/-
Module: CLike.Text.Blank
Layer: Text
Purpose: The blank characters: the twenty-five characters of the Unicode property White_Space.
Main exports: Text.blankRanges, Text.isBlank
-/

namespace CLike.Text

/-- First and last code point of each run of blank characters, in ascending order. -/
def blankRanges : List (Nat × Nat) :=
  [(0x0009, 0x000D),
   (0x0020, 0x0020),
   (0x0085, 0x0085),
   (0x00A0, 0x00A0),
   (0x1680, 0x1680),
   (0x2000, 0x200A),
   (0x2028, 0x2029),
   (0x202F, 0x202F),
   (0x205F, 0x205F),
   (0x3000, 0x3000)]

/-- Whether a character is blank. -/
def isBlank (char : Char) : Bool :=
  blankRanges.any fun range => decide (range.1 ≤ char.toNat) && decide (char.toNat ≤ range.2)

end CLike.Text
