/-
Module: CLike.Proofs.CommentText
Layer: Proofs
Purpose: The text of a comment does not matter: where a line can be read up to the mark of a
  comment, it has the same tokens with any text behind the mark.
Main exports: Token.WrittenAs.eq_slash, Token.WrittenAs.before_comment, Scanned.comment_text,
  lex_comment_text
-/
import CLike.Proofs.LineSeams
import CLike.Proofs.ScanSteps
import Mathlib.Data.List.Basic

namespace CLike

/-!
### In front of a comment

Whatever is read in front of the mark ends in front of it.  A token that goes over a slash does not
end in one, so it would have to end behind the mark.
-/

namespace Token

variable {token : Token} {before span rest : List Char}

/-- Only the operator of one slash ends in a slash. -/
theorem WrittenAs.eq_slash (written : token.WrittenAs span rest)
    (ends : span.getLast? = some '/') : span = ['/'] := by
  have operators : ∀ entry ∈ compoundOperators ++ singleOperators,
      entry.1.toList.getLast? = some '/' → entry.1.toList = ['/'] := by decide
  have member := List.mem_of_getLast? ends
  cases written with
  | closed lexable noRun =>
      rcases lexable.spelling_of_closed noRun with
        ⟨entry, known, same⟩ | ⟨quote, inside, isQuote, shape⟩
      · rw [same] at ends ⊢
        exact operators entry known ends
      · rw [shape, ← List.cons_append, List.getLast?_concat] at ends
        rcases isQuote with rfl | rfl <;> exact absurd ends (by decide)
  | word lexable isRun noNumber ended =>
      exact absurd (lexable.spelling_of_run isRun '/' member) (by decide)
  | integer nonnegative filled areDigits valued ended position =>
      exact absurd (areDigits '/' member) (by decide)

/-- A token that is read in front of the mark of a comment ends in front of it. -/
theorem WrittenAs.before_comment (written : token.WrittenAs span rest)
    (read : Recognizer.usual.findSome? (·.read? (span ++ rest)) =
      some (.token span.length token.kind token.literal))
    (shape : span ++ rest = before ++ lineComment.toList) :
    ∃ later, before = span ++ later ∧ rest = later ++ lineComment.toList := by
  rcases List.append_eq_append_iff.mp shape with inside | ⟨beyond, rfl, mark⟩
  · exact inside
  · cases ends : beyond.getLast? with
    | none =>
        obtain rfl := List.getLast?_eq_none_iff.mp ends
        exact ⟨[], by simp, mark.symm⟩
    | some last =>
        -- The token would be one of the two slashes, but they are read as a mark.
        have filled : beyond ≠ [] := List.ne_nil_of_mem (List.mem_of_getLast? ends)
        have slashes : ∀ char ∈ lineComment.toList, char = '/' := by simp [lineComment]
        obtain rfl : last = '/' := by
          refine slashes last ?_
          rw [mark]
          exact List.mem_append_left rest (List.mem_of_getLast? ends)
        rw [← List.getLast?_append_of_ne_nil before filled] at ends
        obtain rfl : before = [] := by
          have long := congrArg List.length (written.eq_slash ends)
          have filledLength := List.length_pos_iff.mpr filled
          rw [List.length_append, List.length_singleton] at long
          exact List.length_eq_zero_iff.mp (by omega)
        have isMark := Recognizer.usual_comment []
        rw [shape, List.nil_append] at read
        rw [List.append_nil, read] at isMark
        cases isMark

end Token

/-- Where the rest of a line can be read up to the mark of a comment, it is read in the same way with
any text behind the mark. -/
theorem Scanned.comment_text {line column : Nat} {before whole : List Char}
    {outcome : Except LexicalError (List Lexeme)} {found : List Lexeme}
    (scanned : Scanned line column whole outcome) (shape : whole = before ++ lineComment.toList)
    (read : outcome = .ok found) (text : List Char) :
    scanLine Recognizer.usual line column 0 (before ++ (lineComment.toList ++ text)) =
      .ok found := by
  induction scanned generalizing before found with
  | finish column => simp [lineComment] at shape
  | comment column more =>
      obtain rfl := Except.ok.inj read
      rw [← List.append_assoc, ← shape, List.append_assoc, scanLine_comment]
  | @skip column first rest outcome idle more ih =>
      -- The mark interrupts every word, so what is skipped in front of it is inert.
      have slash : '/' ∈ first :: rest := by
        rw [shape]
        exact List.mem_append_right before (by decide)
      have inert : isInert first = true := idle.inert_or_unended.resolve_right fun unended =>
        absurd (unended '/' slash) (by decide)
      cases before with
      | nil =>
          obtain ⟨rfl, -⟩ := List.cons.inj shape
          exact absurd inert (by decide)
      | cons other before =>
          obtain ⟨rfl, same⟩ := List.cons.inj shape
          rw [List.cons_append, scanLine_inert inert]
          exact ih same read
  | @token column token span rest outcome written readHere placed more ih =>
      cases outcome with
      | error cause => cases read
      | ok later =>
          obtain rfl := Except.ok.inj read
          obtain ⟨before, rfl, rfl⟩ := written.before_comment readHere shape
          have filled : before ++ lineComment.toList ≠ [] := by simp [lineComment]
          have resumes := Resumes.append filled [] text
          rw [List.append_nil] at resumes
          have whole := scanLine_token written.filled (written.reads_resumed readHere resumes) line
            column
          rw [List.append_assoc, ih rfl rfl, ← placed] at whole
          rw [List.append_assoc, whole]
          rfl
  | fault column fits => cases read

/-!
### Texts
-/

/-- The lines above the comment are read before it, and they are the same. -/
theorem scanFrom_comment_text {line column : Nat} {before text : List Char} {found : List Lexeme}
    (sameLine : '\n' ∉ text)
    (read : scanFrom line column (before ++ lineComment.toList) = .ok found) :
    scanFrom line column (before ++ (lineComment.toList ++ text)) = .ok found := by
  induction before using line_induction generalizing line column found with
  | last before sameLineBefore =>
      have sameLineMark : '\n' ∉ before ++ lineComment.toList := by
        simp [lineComment, sameLineBefore]
      have sameLineWhole : '\n' ∉ before ++ (lineComment.toList ++ text) := by
        simp [lineComment, sameLineBefore, sameLine]
      rw [scanFrom_sameLine sameLineMark] at read
      rw [scanFrom_sameLine sameLineWhole]
      exact (scanned sameLineMark).comment_text rfl read text
  | line first rest sameLineFirst ih =>
      rw [List.append_assoc, List.cons_append] at read ⊢
      obtain ⟨here, below, readFirst, readBelow, rfl⟩ :=
        (scanFrom_line_eq_ok_iff sameLineFirst).mp read
      exact (scanFrom_line_eq_ok_iff sameLineFirst).mpr
        ⟨here, below, readFirst, ih readBelow, rfl⟩

/-- A text that can be read up to the mark of a comment has the same tokens at the same places with
any text behind the mark that stays in its line, whatever quotes, numbers, operators and marks are
in it. -/
theorem lex_comment_text {before text : String} {tokens : List Token}
    (sameLine : '\n' ∉ text.toList) (read : lex (before ++ lineComment) = .ok tokens) :
    lex (before ++ lineComment ++ text) = .ok tokens := by
  obtain ⟨found, readMark, same⟩ := lex_eq_ok_iff.mp read
  rw [String.toList_append] at readMark
  have readText := scanFrom_comment_text sameLine readMark
  rw [← List.append_assoc, ← String.toList_append, ← String.toList_append] at readText
  exact lex_eq_ok_iff.mpr ⟨found, readText, same⟩

/-- A slash in front of the mark, the mark inside a string and an open quote behind it. -/
theorem lex_comment_text_open_quote :
    '\n' ∉ " \"' 99999999999 // ==".toList ∧
      lex ("x = '/' / \"//\"/" ++ lineComment) = .ok
        [⟨.identifier, .text "x", ⟨1, 1⟩⟩, ⟨.assign, .text "=", ⟨1, 3⟩⟩,
          ⟨.character, .character '/', ⟨1, 5⟩⟩, ⟨.slash, .text "/", ⟨1, 9⟩⟩,
          ⟨.string, .text "//", ⟨1, 11⟩⟩] ∧
      lex ("x = '/' / \"//\"/" ++ lineComment ++ " \"' 99999999999 // ==") = .ok
        [⟨.identifier, .text "x", ⟨1, 1⟩⟩, ⟨.assign, .text "=", ⟨1, 3⟩⟩,
          ⟨.character, .character '/', ⟨1, 5⟩⟩, ⟨.slash, .text "/", ⟨1, 9⟩⟩,
          ⟨.string, .text "//", ⟨1, 11⟩⟩] := by
  have sameLine : '\n' ∉ " \"' 99999999999 // ==".toList := by decide
  have read : lex ("x = '/' / \"//\"/" ++ lineComment) = .ok
      [⟨.identifier, .text "x", ⟨1, 1⟩⟩, ⟨.assign, .text "=", ⟨1, 3⟩⟩,
        ⟨.character, .character '/', ⟨1, 5⟩⟩, ⟨.slash, .text "/", ⟨1, 9⟩⟩,
        ⟨.string, .text "//", ⟨1, 11⟩⟩] := rfl
  exact ⟨sameLine, read, lex_comment_text sameLine read⟩

end CLike
