/-
Module: CLike.Proofs.Rereading
Layer: Proofs
Purpose: The tokens of a text carry values that suit their classes, so they can be written down again
  in any layout, and what is read then are the same tokens.
Main exports: Literal.Suits, Token.Lexable.suits, lex_rereads
-/
import CLike.Proofs.Spans

namespace CLike

/-!
### Values that suit their classes

Class and value of a token are independent of each other.  No text has a token whose value does not
suit its class, whatever characters are in the text.
-/

/-- The value is one that a token of the class has in some text.  Calls are in no text, and the words
and marks of the tables are written in one way only. -/
def Literal.Suits : Kind → Literal → Prop
  | .call, _ => False
  | .identifier, literal => ∃ name, literal = .text name ∧
      isName name = true ∧ keywords.kindOf? name = none
  | .integer, literal => ∃ value, literal = .integer value ∧
      0 ≤ value.toInt ∧ value.toInt ≤ largestInteger
  | .character, literal => ∃ value, literal = .character value ∧ value ≠ '\n'
  | .string, literal => ∃ text, literal = .text text ∧
      stringDelimiter ∉ text.toList ∧ '\n' ∉ text.toList
  | kind, literal => ∃ lexeme, literal = .text lexeme ∧
      (lexeme, kind) ∈ keywords ++ compoundOperators ++ singleOperators

/-- The words and marks of the tables suit their classes. -/
theorem Literal.suits_of_entry {entry : String × Kind}
    (known : entry ∈ keywords ++ compoundOperators ++ singleOperators) :
    Suits entry.2 (.text entry.1) := by
  have apart : ∀ entry ∈ keywords ++ compoundOperators ++ singleOperators,
      entry.2 ≠ .call ∧ entry.2 ≠ .identifier ∧ entry.2 ≠ .integer ∧ entry.2 ≠ .character ∧
        entry.2 ≠ .string := by decide
  obtain ⟨noCall, noIdentifier, noInteger, noCharacter, noString⟩ := apart entry known
  unfold Suits
  split
  · next same => exact noCall same
  · next same => exact absurd same noIdentifier
  · next same => exact absurd same noInteger
  · next same => exact absurd same noCharacter
  · next same => exact absurd same noString
  · exact ⟨entry.1, rfl, known⟩

namespace Token

/-- A token that can be written down has a value that suits its class. -/
theorem Lexable.suits {token : Token} (lexable : token.Lexable) :
    token.literal.Suits token.kind := by
  cases lexable with
  | keyword known position => exact Literal.suits_of_entry (by simp [known])
  | compound known position => exact Literal.suits_of_entry (by simp [known])
  | single known position => exact Literal.suits_of_entry (by simp [known])
  | @identifier name named unreserved position => exact ⟨name, rfl, named, unreserved⟩
  | @integer value nonnegative position =>
      have below := value.toInt_lt
      have inRange : value.toInt ≤ largestInteger := by
        unfold largestInteger
        omega
      exact ⟨value, rfl, Int32.le_iff_toInt_le.mp nonnegative, inRange⟩
  | @character value sameLine position => exact ⟨value, rfl, sameLine⟩
  | @string text unquoted sameLine position => exact ⟨text, rfl, unquoted, sameLine⟩

/-- One space is a gap behind every token. -/
theorem gap_space (token : Token) : token.Gap " ".toList :=
  ⟨' ', [], rfl, by decide, .nil, fun _ => by decide⟩

end Token

/-!
### Reading twice
-/

/-- The tokens of every text have values that suit their classes.  If they are written down with one
space behind each of them, they are read again, up to their places: to read a second time changes
only the layout. -/
theorem lex_rereads {source : String} {tokens : List Token} (read : lex source = .ok tokens) :
    (∀ token ∈ tokens, token.literal.Suits token.kind) ∧
      ∃ again, lex (written (tokens.map fun token => (token, " "))) = .ok again ∧
        (again == tokens) = true := by
  have lexable := lexable_of_lex read
  refine ⟨fun token member => (lexable token member).suits, ?_⟩
  have pieces : (tokens.map fun token => (token, " ")).map (·.1) = tokens := by
    rw [List.map_map]
    exact List.map_id tokens
  have lexablePieces : ∀ piece ∈ tokens.map fun token => (token, " "), piece.1.Lexable :=
    List.forall_mem_map.mpr lexable
  have gaps : ∀ piece ∈ tokens.map fun token => (token, " "), piece.1.Gap piece.2.toList :=
    List.forall_mem_map.mpr fun token _ => token.gap_space
  obtain ⟨again, readAgain, same⟩ := (Yields.written lexablePieces gaps).lex
  rw [pieces] at same
  exact ⟨again, readAgain, Token.beq_iff_map_unplaced_eq.mpr same⟩

/-- A quote in quotes, a number with zeros in front, a mark in a string and a number in a word that
touches the end of its line. -/
theorem lex_rereads_odd_places :
    let tokens : List Token := [⟨.identifier, .text "x1", ⟨1, 2⟩⟩, ⟨.assign, .text "=", ⟨1, 4⟩⟩,
      ⟨.integer, .integer 7, ⟨1, 5⟩⟩, ⟨.character, .character '"', ⟨1, 8⟩⟩,
      ⟨.string, .text "//", ⟨1, 11⟩⟩, ⟨.ifWord, .text "if", ⟨1, 15⟩⟩,
      ⟨.integer, .integer 1, ⟨2, 2⟩⟩]
    lex "§x1=007'\"'\"//\"if\t\na1b" = .ok tokens ∧
      (∀ token ∈ tokens, token.literal.Suits token.kind) ∧
      ∃ again, lex (written (tokens.map fun token => (token, " "))) = .ok again ∧
        (again == tokens) = true := by
  intro tokens
  have read : lex "§x1=007'\"'\"//\"if\t\na1b" = .ok tokens := rfl
  exact ⟨read, lex_rereads read⟩

end CLike
