/-
Module: CLike.Proofs.LeadingNumbers
Layer: Proofs
Purpose: A number at the front of a line is read with its exact value, or it is refused because the
  value is out of range, and what follows it is read as if it stood alone.
Main exports: scanLine_digits, scanLine_digits_outOfRange, lex_digits_append
-/
import CLike.Proofs.LineSeams

namespace CLike

/-!
### In a line

Digits decide at once about the number they make, and only by its value: zeros in front make it
longer and not larger.
-/

section

variable {digits rest : List Char} (filled : digits ≠ [])
  (areDigits : ∀ digit ∈ digits, digit.isDigit = true) (ended : Ended Char.isDigit rest)

include filled areDigits ended

/-- Behind a number in range, the scan goes on as at the start of a line, only further to the
right. -/
theorem scanLine_digits (inRange : Nat.ofDigitChars 10 digits 0 ≤ largestInteger)
    (line column : Nat) :
    scanLine Recognizer.usual line column 0 (digits ++ rest) =
      (scanLine Recognizer.usual line column 0 rest).map fun later =>
        ⟨⟨.integer, .integer (.ofNat (Nat.ofDigitChars 10 digits 0)), ⟨line, column⟩⟩,
          digits.length⟩ :: later.map (Lexeme.moved 0 digits.length) := by
  have read := Recognizer.usual_integer filled areDigits inRange ended
  have moved := scanLine_moved Recognizer.usual line 0 column digits.length 0 rest
  rw [Nat.add_zero] at moved
  rw [scanLine_token filled read, moved]
  cases scanLine Recognizer.usual line column 0 rest with
  | error cause => rfl
  | ok later => rfl

/-- A number out of range is refused, whatever ends it. -/
theorem scanLine_digits_outOfRange (outOfRange : largestInteger < Nat.ofDigitChars 10 digits 0)
    (line column : Nat) :
    scanLine Recognizer.usual line column 0 (digits ++ rest) =
      .error (.integerOutOfRange (String.ofList digits)) := by
  have read := Recognizer.usual_digits filled areDigits ended
  rw [if_neg (Nat.not_le_of_lt outOfRange)] at read
  obtain ⟨first, more, rfl⟩ := List.exists_cons_of_ne_nil filled
  rw [List.cons_append] at read ⊢
  rw [scanLine, read]

end

/-!
### In a text
-/

/-- A text of one line that starts with digits, behind which something else follows.  If their value
is in range, the first token is the integer of exactly this value, and the others are those of the
text behind it, further to the right by as many columns as there are digits, or the text is refused
for the same reason as the text behind it.  If the value is out of range, the text is refused with
all the digits, whatever follows. -/
theorem lex_digits_append {digits rest : String} (filled : digits.toList ≠ [])
    (areDigits : ∀ digit ∈ digits.toList, digit.isDigit = true) (sameLine : '\n' ∉ rest.toList)
    (ended : Ended Char.isDigit rest.toList) :
    let value := Nat.ofDigitChars 10 digits.toList 0
    (value ≤ largestInteger → ∃ number : Int32, number.toInt = value ∧
      lex (digits ++ rest) = (lex rest).map fun later =>
        ⟨.integer, .integer number, ⟨1, 1⟩⟩ :: later.map (Token.moved 0 digits.length)) ∧
    (largestInteger < value → lex (digits ++ rest) = .error (.integerOutOfRange digits)) := by
  intro value
  have noNewline : '\n' ∉ digits.toList := fun member => absurd (areDigits _ member) (by decide)
  have sameLineWhole : '\n' ∉ (digits ++ rest).toList := by
    rw [String.toList_append, List.mem_append]
    exact not_or.mpr ⟨noNewline, sameLine⟩
  rw [lex_eq_scanFrom, lex_eq_scanFrom, scanFrom_sameLine sameLineWhole,
    scanFrom_sameLine sameLine, String.toList_append]
  constructor
  · intro inRange
    refine ⟨.ofNat value, Int32.toInt_ofNat_of_lt (Nat.lt_succ_of_le inRange), ?_⟩
    rw [scanLine_digits filled areDigits ended inRange]
    cases scanLine Recognizer.usual 1 1 0 rest.toList with
    | error cause => rfl
    | ok later =>
        refine congrArg Except.ok ?_
        simp only [List.map_cons, map_token_moved, String.length_toList]
        rfl
  · intro outOfRange
    rw [scanLine_digits_outOfRange filled areDigits ended outOfRange, String.ofList_toList]
    rfl

/-- Zeros in front are no reason to refuse the largest integer, and the next one is refused with
them. -/
theorem lex_digits_append_at_limit :
    (∃ number : Int32, number.toInt = 2147483647 ∧
      lex ("0002147483647" ++ "_a + 'é';") = (lex "_a + 'é';").map fun later =>
        ⟨.integer, .integer number, ⟨1, 1⟩⟩ :: later.map (Token.moved 0 13)) ∧
      lex ("0002147483648" ++ "_a + 'é") = .error (.integerOutOfRange "0002147483648") := by
  constructor
  · have areDigits := List.all_eq_true.mp (by decide : "0002147483647".toList.all (·.isDigit))
    obtain ⟨inRange, -⟩ := @lex_digits_append "0002147483647" "_a + 'é';" (by decide) areDigits
      (by decide) ⟨'_', "a + 'é';".toList, rfl, rfl⟩
    exact inRange (by decide)
  · have areDigits := List.all_eq_true.mp (by decide : "0002147483648".toList.all (·.isDigit))
    obtain ⟨-, outOfRange⟩ := @lex_digits_append "0002147483648" "_a + 'é" (by decide) areDigits
      (by decide) ⟨'_', "a + 'é".toList, rfl, rfl⟩
    exact outOfRange (by decide)

end CLike
