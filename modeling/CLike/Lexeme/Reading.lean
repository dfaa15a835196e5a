/-
Module: CLike.Lexeme.Reading
Layer: Lexemes
Purpose: The eight kinds of thing that can stand in a line of source text, each with the recognizer
  that reads one from the front of the text that remains.
Main exports: LexicalError, LexicalError.message, Reading, Recognizer, Recognizer.read?,
  Recognizer.usual
-/
import CLike.Token
import CLike.Vocabulary
import CLike.Text.Blank

namespace CLike

/-- Why a text cannot be cut into tokens. -/
inductive LexicalError where
  | unclosedString
  | unclosedCharacter
  | integerOutOfRange (digits : String)
deriving Repr, DecidableEq

namespace LexicalError

/-- The wording of an error. -/
def message : LexicalError → String
  | unclosedString => "unclosed string literal"
  | unclosedCharacter => "unclosed char literal"
  | integerOutOfRange digits => "integer literal out of range: " ++ digits

end LexicalError

/-- What a recognizer makes of the text in front of it.  A width counts the characters that were
read. -/
inductive Reading where
  /-- The rest of the line is a comment. -/
  | comment
  /-- Some blank characters, which stand for no token. -/
  | blank (width : Nat)
  /-- One token. -/
  | token (width : Nat) (kind : Kind) (literal : Literal)
  /-- The text has to be refused. -/
  | fault (cause : LexicalError)
deriving Repr, DecidableEq

/-- The longest run of characters of one class at the front of a line, if there is one and the line
goes on behind it.  A run that touches the end of its line is no run: nothing has ended it. -/
def endedRun? (inClass : Char → Bool) (text : List Char) : Option (List Char) :=
  let run := text.takeWhile inClass
  if run.isEmpty || (text.dropWhile inClass).isEmpty then none else some run

/-- The characters that can follow the first letter of a word. -/
def isWordChar (char : Char) : Bool := char.isAlphanum || char == '_'

/-- The largest value of an integer literal. -/
def largestInteger : Nat := 2147483647

/-- Reads a word of the vocabulary that is `width` characters long. -/
def Vocabulary.read? (vocabulary : Vocabulary) (width : Nat) (text : List Char) : Option Reading :=
  let lexeme := String.ofList (text.take width)
  (vocabulary.kindOf? lexeme).map fun kind => .token width kind (.text lexeme)

/-- The things that can stand in a line. -/
inductive Recognizer where
  | comment
  | compound
  | single
  | blank
  | string
  | character
  | integer
  | word
deriving Repr, DecidableEq

namespace Recognizer

/-- Reads one thing from the front of a line's remaining text, or declines. -/
def read? : Recognizer → List Char → Option Reading
  | comment, text => if lineComment.toList.isPrefixOf text then some .comment else none
  | compound, text => compoundOperators.read? 2 text
  | single, text => singleOperators.read? 1 text
  | blank, text =>
    let width := (text.takeWhile Text.isBlank).length
    if width = 0 then none else some (.blank width)
  | string, [] => none
  | string, first :: body =>
    if first = stringDelimiter then
      if (body.dropWhile (· ≠ stringDelimiter)).isEmpty then some (.fault .unclosedString)
      else
        let inside := body.takeWhile (· ≠ stringDelimiter)
        some (.token (inside.length + 2) .string (.text (String.ofList inside)))
    else none
  | character, [] => none
  | character, first :: body =>
    if first = characterDelimiter then
      match body with
      | value :: last :: _ =>
        if last = characterDelimiter then some (.token 3 .character (.character value))
        else some (.fault .unclosedCharacter)
      | _ => some (.fault .unclosedCharacter)
    else none
  | integer, text =>
    (endedRun? Char.isDigit text).map fun digits =>
      let value := Nat.ofDigitChars 10 digits 0
      if value ≤ largestInteger then .token digits.length .integer (.integer (.ofNat value))
      else .fault (.integerOutOfRange (String.ofList digits))
  | word, [] => none
  | word, first :: rest =>
    if first.isAlpha then
      (endedRun? isWordChar (first :: rest)).map fun letters =>
        let name := String.ofList letters
        .token letters.length ((keywords.kindOf? name).getD .identifier) (.text name)
    else none

/-- The order in which the recognizers are tried: a comment is no pair of slashes, and an operator
of two characters is no pair of operators. -/
def usual : List Recognizer :=
  [comment, compound, single, blank, string, character, integer, word]

end Recognizer

end CLike
