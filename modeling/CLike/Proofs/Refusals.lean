/-
Module: CLike.Proofs.Refusals
Layer: Proofs
Purpose: A text is refused for what stands where the scan stops, and everything in front of that
  place can be read by itself.
Main exports: Scanned.refusal, scanFrom_refusal, lex_refusal
-/
import CLike.Proofs.LineSeams
import CLike.Proofs.ScanSteps

namespace CLike

/-!
### Lines

In front of the place where a line is refused, each step of the scan is the same if a blank stands
there.  Only a word that goes on to the end of the line is different: its letters are dropped one by
one until a number in it is refused, and with the blank it is read.
-/

/-- What a text is refused for is not made of digits only. -/
theorem Reading.Fits.exists_noDigit {cause : LexicalError} {text : List Char}
    (fits : (Reading.fault cause).Fits text) : ∃ char ∈ text, char.isDigit = false := by
  cases cause with
  | unclosedString =>
      obtain ⟨body, rfl, -⟩ := fits
      exact ⟨stringDelimiter, List.mem_cons_self, by decide⟩
  | unclosedCharacter =>
      obtain ⟨body, rfl, -⟩ := fits
      exact ⟨characterDelimiter, List.mem_cons_self, by decide⟩
  | integerOutOfRange digits =>
      obtain ⟨rest, rfl, -, ⟨next, more, rfl, noDigit⟩, -⟩ := fits
      exact ⟨next, List.mem_append_right _ List.mem_cons_self, noDigit⟩

/-- A place in a line at which something has to be refused, although all that is in front of the
place can be read where a blank ends it. -/
structure RefusedAt (line column : Nat) (before behind : List Char) (cause : LexicalError) : Prop
    where
  fits : (Reading.fault cause).Fits behind
  read : ∃ found, scanLine Recognizer.usual line column 0 (before ++ [' ']) = .ok found

namespace RefusedAt

variable {line column : Nat} {before behind : List Char} {cause : LexicalError}

/-- The front of a line can be the place. -/
theorem here (fits : (Reading.fault cause).Fits behind) :
    RefusedAt line column [] behind cause := by
  refine ⟨fits, [], ?_⟩
  rw [List.nil_append, scanLine_blank (by decide), scanLine]

/-- An idle character is passed, or the word that it starts is read up to the blank. -/
theorem skip {first : Char} (idle : Idle first (before ++ behind))
    (later : RefusedAt line (column + 1) before behind cause) :
    RefusedAt line column (first :: before) behind cause := by
  refine ⟨later.fits, ?_⟩
  cases idle with
  | inert isInert =>
      rw [List.cons_append, scanLine_inert isInert]
      exact later.read
  | word letter unended =>
      have wordChars : ∀ char ∈ before, isWordChar char = true :=
        (List.forall_mem_append.mp (List.forall_mem_cons.mp unended).2).1
      have read := Recognizer.usual_word letter wordChars ⟨' ', [], rfl, by decide⟩
      rw [scanLine_token (List.cons_ne_nil first before) read, scanLine_blank (by decide), scanLine]
      exact ⟨_, rfl⟩
  | number unended =>
      obtain ⟨char, member, noDigit⟩ := later.fits.exists_noDigit
      rw [unended char (List.mem_cons_of_mem _ (List.mem_append_right _ member))] at noDigit
      cases noDigit

/-- A token is read. -/
theorem token {token : Token} {span : List Char} (written : token.WrittenAs span (before ++ behind))
    (read : Recognizer.usual.findSome? (·.read? (span ++ (before ++ behind))) =
      some (.token span.length token.kind token.literal))
    (later : RefusedAt line (column + span.length) before behind cause) :
    RefusedAt line column (span ++ before) behind cause := by
  obtain ⟨fits, found, readLater⟩ := later
  have resumes : Resumes (before ++ behind) (before ++ [' ']) := by
    cases before with
    | nil => exact .blank behind []
    | cons first more => exact .append (List.cons_ne_nil first more) behind [' ']
  have whole := scanLine_token written.filled (written.reads_resumed read resumes) line column
  rw [readLater, ← List.append_assoc] at whole
  exact ⟨fits, _, whole⟩

end RefusedAt

/-- A line that is refused is refused at some place in it. -/
theorem Scanned.refusal {line column : Nat} {text : List Char}
    {outcome : Except LexicalError (List Lexeme)} {cause : LexicalError}
    (scanned : Scanned line column text outcome) (refused : outcome = .error cause) :
    ∃ before behind, text = before ++ behind ∧ RefusedAt line column before behind cause := by
  induction scanned with
  | finish column => cases refused
  | comment column text => cases refused
  | skip idle more ih =>
      obtain ⟨before, behind, rfl, later⟩ := ih refused
      exact ⟨_, behind, rfl, later.skip idle⟩
  | @token column token span rest outcome written read placed more ih =>
      have refusedLater : outcome = .error cause := by
        cases outcome with
        | error other => exact congrArg Except.error (Except.error.inj refused)
        | ok found => cases refused
      obtain ⟨before, behind, rfl, later⟩ := ih refusedLater
      exact ⟨span ++ before, behind, (List.append_assoc ..).symm, later.token written read⟩
  | fault column fits =>
      obtain rfl := Except.error.inj refused
      exact ⟨[], _, rfl, .here fits⟩

/-!
### Texts

The lines above the one that is refused are read as they are.
-/

/-- Where a line is refused, so is the text that goes on with it. -/
theorem scanLine_refusal {line column : Nat} {text below : List Char} {cause : LexicalError}
    (sameLine : '\n' ∉ text) (ends : below.takeWhile (· ≠ '\n') = [])
    (refused : scanLine Recognizer.usual line column 0 text = .error cause) :
    ∃ before behind, text ++ below = before ++ behind ∧
      (Reading.fault cause).Fits (behind.takeWhile (· ≠ '\n')) ∧
      ∃ found, scanFrom line column (before ++ [' ']) = .ok found := by
  obtain ⟨before, behind, rfl, fits, found, read⟩ := (scanned sameLine).refusal refused
  have sameLineBefore : '\n' ∉ before ++ [' '] := by
    simp [mt (List.mem_append_left behind) sameLine]
  have inside := forall_ne_of_not_mem (mt (List.mem_append_right before) sameLine)
  refine ⟨before, behind ++ below, List.append_assoc .., ?_, found, ?_⟩
  · rwa [List.takeWhile_append_of_pos inside, ends, List.append_nil]
  · rw [scanFrom_sameLine sameLineBefore, read]

/-- A text that is refused is refused at some place in it, for what stands in the rest of the line,
and the text up to that place can be read. -/
theorem scanFrom_refusal {line column : Nat} {text : List Char} {cause : LexicalError}
    (refused : scanFrom line column text = .error cause) :
    ∃ before behind, text = before ++ behind ∧
      (Reading.fault cause).Fits (behind.takeWhile (· ≠ '\n')) ∧
      ∃ found, scanFrom line column (before ++ [' ']) = .ok found := by
  induction text using line_induction generalizing line column with
  | last text sameLine =>
      rw [scanFrom_sameLine sameLine] at refused
      have alone := scanLine_refusal sameLine (rfl : [].takeWhile (· ≠ '\n') = []) refused
      rwa [List.append_nil] at alone
  | line first rest sameLine ih =>
      rcases (scanFrom_line_eq_error_iff sameLine).mp refused with
        refusedFirst | ⟨here, readFirst, refusedBelow⟩
      · exact scanLine_refusal sameLine rfl refusedFirst
      · obtain ⟨before, behind, rfl, fits, found, read⟩ := ih refusedBelow
        refine ⟨first ++ '\n' :: before, behind, ?_, fits, here ++ found, ?_⟩
        · rw [List.append_assoc, List.cons_append]
        · rw [List.append_assoc, List.cons_append]
          exact (scanFrom_line_eq_ok_iff sameLine).mpr ⟨here, found, readFirst, read, rfl⟩

/-- A text that is refused has a place where the scan stops.  The rest of the line there starts with
a quote that is not closed, with a quote that does not close a single character, or with a number
out of range that something ends.  Up to this place nothing is wrong: with a blank behind it the
text can be read. -/
theorem lex_refusal {source : String} {cause : LexicalError}
    (refused : lex source = .error cause) :
    ∃ before behind : String, source = before ++ behind ∧
      (∃ tokens, lex (before ++ " ") = .ok tokens) ∧
      (Reading.fault cause).Fits (behind.toList.takeWhile (· ≠ '\n')) := by
  obtain ⟨before, behind, shape, fits, found, read⟩ :=
    scanFrom_refusal (lex_eq_error_iff.mp refused)
  have ended : (String.ofList before ++ " ").toList = before ++ [' '] := by
    rw [String.toList_append, String.toList_ofList]
    rfl
  refine ⟨String.ofList before, String.ofList behind, ?_, ⟨found.map Lexeme.token, ?_⟩, ?_⟩
  · rw [← String.ofList_append, ← shape, String.ofList_toList]
  · rw [← ended] at read
    exact lex_eq_ok_iff.mpr ⟨found, read, rfl⟩
  · rwa [String.toList_ofList]

/-- The quote in the comment does no harm.  The word at the end is not read, and the second number in
it is refused, although the text up to this number is a word that is read where a blank ends it. -/
theorem lex_refusal_inside_word :
    lex "// \"\nx = 'é' / y1z99999999999w" = .error (.integerOutOfRange "99999999999") ∧
      ∃ before behind : String, "// \"\nx = 'é' / y1z99999999999w" = before ++ behind ∧
        (∃ tokens, lex (before ++ " ") = .ok tokens) ∧
        (Reading.fault (.integerOutOfRange "99999999999")).Fits
          (behind.toList.takeWhile (· ≠ '\n')) := by
  have refused : lex "// \"\nx = 'é' / y1z99999999999w" =
      .error (.integerOutOfRange "99999999999") := by rfl
  exact ⟨refused, lex_refusal refused⟩

end CLike
