/-
Module: CLike.Vocabulary
Layer: Text
Purpose: The fixed words and marks of the language, each with its class, and the delimiters of
  comments, strings and characters.
Main exports: Vocabulary, keywords, compoundOperators, singleOperators, Vocabulary.kindOf?
-/
import CLike.Kind

namespace CLike

/-- Fixed words or marks with their classes, in the order of the words. -/
abbrev Vocabulary := List (String × Kind)

namespace Vocabulary

/-- The class of a word, if the vocabulary has the word. -/
def kindOf? (vocabulary : Vocabulary) (word : String) : Option Kind := vocabulary.lookup word

end Vocabulary

/-- The reserved words.  None of them can be the name of a variable. -/
def keywords : Vocabulary :=
  [("break", .breakWord),
   ("char", .charType),
   ("continue", .continueWord),
   ("else", .elseWord),
   ("if", .ifWord),
   ("input", .inputWord),
   ("int", .intType),
   ("print", .printWord),
   ("return", .returnWord),
   ("void", .voidType),
   ("while", .whileWord)]

/-- The operators of two characters. -/
def compoundOperators : Vocabulary :=
  [("!=", .notEqual),
   ("&&", .logicalAnd),
   ("<=", .lessOrEqual),
   ("==", .equal),
   (">=", .greaterOrEqual),
   ("||", .logicalOr)]

/-- The operators and marks of one character. -/
def singleOperators : Vocabulary :=
  [("!", .bang),
   ("%", .percent),
   ("&", .ampersand),
   ("(", .leftParen),
   (")", .rightParen),
   ("*", .star),
   ("+", .plus),
   (",", .comma),
   ("-", .minus),
   ("/", .slash),
   (";", .semicolon),
   ("<", .less),
   ("=", .assign),
   (">", .greater),
   ("[", .leftBracket),
   ("]", .rightBracket),
   ("\x7b", .leftBrace),
   ("|", .bar),
   ("\x7d", .rightBrace)]

/-- Everything from this mark to the end of its line is a comment. -/
def lineComment : String := "//"

/-- Stands on both sides of a string. -/
def stringDelimiter : Char := '"'

/-- Stands on both sides of a character. -/
def characterDelimiter : Char := '\''

/-!
The rows of each vocabulary ascend strictly, so no word has two classes.
-/

theorem keywords_ascend : keywords.Pairwise (·.1 < ·.1) := by decide

theorem compoundOperators_ascend : compoundOperators.Pairwise (·.1 < ·.1) := by decide

theorem singleOperators_ascend : singleOperators.Pairwise (·.1 < ·.1) := by decide

end CLike
