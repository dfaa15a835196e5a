/-
Module: CLike.Lexeme.Scan
Layer: Lexemes
Purpose: Cutting a source text into lexemes, line by line and from left to right.
Main exports: Lexeme, scanLine, scanLines, lexemesWith, lexemes, lex
-/
import CLike.Lexeme.Reading
import CLike.Text.Line

namespace CLike

/-- A token together with the number of characters that it takes in its line. -/
structure Lexeme where
  token : Token
  width : Nat
deriving Repr, DecidableEq

/-!
A line is read in one pass over its characters.  Where no lexeme is under way, the recognizers are
asked in the given order and the first one that does not decline decides.  The characters of its
reading are then passed over one by one: `covered` counts those that are still to come.  A character
that nobody recognizes is dropped.
-/

/-- The lexemes of the rest of a line, whose first character stands in the given column. -/
def scanLine (order : List Recognizer) (line : Nat) :
    (column covered : Nat) → List Char → Except LexicalError (List Lexeme)
  | _, _, [] => .ok []
  | column, covered + 1, _ :: rest => scanLine order line (column + 1) covered rest
  | column, 0, first :: rest =>
    match order.findSome? (·.read? (first :: rest)) with
    | none => scanLine order line (column + 1) 0 rest
    | some .comment => .ok []
    | some (.blank width) => scanLine order line (column + 1) (width - 1) rest
    | some (.token width kind literal) =>
      (scanLine order line (column + 1) (width - 1) rest).map
        (⟨⟨kind, literal, ⟨line, column⟩⟩, width⟩ :: ·)
    | some (.fault cause) => .error cause

/-- Passing over covered characters is the same as starting behind them. -/
theorem scanLine_covered (order : List Recognizer) (line column covered : Nat) (text : List Char) :
    scanLine order line column covered text =
      scanLine order line (column + min covered text.length) 0 (text.drop covered) := by
  induction covered generalizing column text with
  | zero => rw [Nat.zero_min, Nat.add_zero, List.drop_zero]
  | succ covered ih =>
      cases text with
      | nil => rfl
      | cons first rest =>
          rw [scanLine, ih, List.drop_succ_cons, List.length_cons, Nat.add_min_add_right,
            Nat.add_assoc, Nat.add_comm 1]

/-- The lexemes of some lines, the first of which has the given number.  The first fault in reading
order refuses the whole text. -/
def scanLines (order : List Recognizer) : (line : Nat) → List (List Char) →
    Except LexicalError (List Lexeme)
  | _, [] => .ok []
  | line, text :: later => do
    let here ← scanLine order line 1 0 text
    let below ← scanLines order (line + 1) later
    return here ++ below

/-- The lexemes of a text, with the recognizers tried in any order. -/
def lexemesWith (order : List Recognizer) (source : String) : Except LexicalError (List Lexeme) :=
  scanLines order 1 (Text.lines source.toList)

/-- The lexemes of a text. -/
def lexemes (source : String) : Except LexicalError (List Lexeme) :=
  lexemesWith Recognizer.usual source

/-- The tokens of a text, in reading order. -/
def lex (source : String) : Except LexicalError (List Token) :=
  (lexemes source).map (·.map Lexeme.token)

end CLike
