/-
Module: CLike.Proofs.Spans
Layer: Proofs
Purpose: The tokens of a text stand where their positions say, in order and without overlap, and
  what lies between them says nothing.
Main exports: LineReads, LineReads.of_scanLine, Lexeme.StandsIn, Lexeme.Precedes,
  Lexeme.covers, Accounts, LinesRead, lexable_of_lex, lex_spans, lex_accounts
-/
import CLike.Proofs.ScanSteps
import Mathlib.Data.List.Basic

namespace CLike

/-!
### Reading a line

A line is a sequence of tokens and idle characters up to its end or to a comment.  The width that
the scanner keeps beside a token is the length of what the token is written as, so the column moves
on by what is passed.
-/

/-- From the given column on, the rest of a line holds these lexemes. -/
inductive LineReads (line : Nat) : (column : Nat) → List Char → List Lexeme → Prop where
  | finish (column : Nat) : LineReads line column [] []
  | comment (column : Nat) (text : List Char) :
      LineReads line column (lineComment.toList ++ text) []
  | skip {column : Nat} {first : Char} {rest : List Char} {found : List Lexeme}
      (idle : Idle first rest) (more : LineReads line (column + 1) rest found) :
      LineReads line column (first :: rest) found
  | token {column : Nat} {token : Token} {span rest : List Char} {found : List Lexeme}
      (written : token.WrittenAs span rest) (placed : token.position = ⟨line, column⟩)
      (more : LineReads line (column + span.length) rest found) :
      LineReads line column (span ++ rest) (⟨token, span.length⟩ :: found)

/-- A line is read as it is scanned. -/
theorem LineReads.of_scanned {line column : Nat} {text : List Char}
    {outcome : Except LexicalError (List Lexeme)} {found : List Lexeme}
    (scanned : Scanned line column text outcome) (read : outcome = .ok found) :
    LineReads line column text found := by
  induction scanned generalizing found with
  | finish column =>
      obtain rfl := Except.ok.inj read
      exact .finish column
  | comment column text =>
      obtain rfl := Except.ok.inj read
      exact .comment column text
  | skip idle more ih => exact .skip idle (ih read)
  | @token column token span rest outcome written _ placed more ih =>
      cases outcome with
      | error cause => cases read
      | ok later =>
          obtain rfl := Except.ok.inj read
          exact .token written placed (ih rfl)
  | fault column fits => cases read

/-- A line is read as the scanner reads it. -/
theorem LineReads.of_scanLine {line column : Nat} {text : List Char} {found : List Lexeme}
    (sameLine : '\n' ∉ text)
    (read : scanLine Recognizer.usual line column 0 text = .ok found) :
    LineReads line column text found :=
  .of_scanned (scanned sameLine) read

/-!
### Where a token stands

The characters that a token is written as stand in its line from its column on.  A number is not cut
in two: a digit behind another one is read with it, or both belong to a run that goes on to the end
of the line.
-/

namespace Lexeme

/-- The column behind the lexeme. -/
def stop (lexeme : Lexeme) : Nat := lexeme.token.position.column + lexeme.width

/-- The lexeme stands in a line, at the place it says, as long as it says and written as its token
is.  The digits of a number are all that stand there, on both sides. -/
def StandsIn (lexeme : Lexeme) (line : Nat) (text : List Char) : Prop :=
  ∃ before span rest, text = before ++ span ++ rest ∧
    lexeme.token.position = ⟨line, before.length + 1⟩ ∧ lexeme.width = span.length ∧
    lexeme.token.WrittenAs span rest ∧
    (lexeme.token.kind = .integer → ∀ last ∈ before.getLast?, last.isDigit = false)

/-- The first lexeme starts before the second one, and ends before it if they share a line. -/
def Precedes (one two : Lexeme) : Prop :=
  one.token.position.line < two.token.position.line ∨
    one.token.position.line = two.token.position.line ∧
      one.token.position.column < two.token.position.column ∧
      one.stop ≤ two.token.position.column

end Lexeme

/-- Between the two parts of a line no number is cut in two that is read. -/
def Seam (before rest : List Char) : Prop :=
  (∀ last ∈ before.getLast?, last.isDigit = false) ∨
    (∀ first ∈ rest.head?, first.isDigit = false) ∨ ∀ char ∈ rest, char.isDigit = true

/-- What ends a number starts no other one. -/
theorem Seam.of_ended {before rest : List Char} (ended : Ended Char.isDigit rest) :
    Seam before rest := by
  obtain ⟨next, more, rfl, stopped⟩ := ended
  refine .inr (.inl fun first same => ?_)
  obtain rfl := Option.some.inj same
  exact stopped

/-- What does not end in a digit is followed by no part of its number. -/
theorem Seam.of_last {before span rest : List Char} (filled : span ≠ [])
    (noDigit : ∀ last ∈ span.getLast?, last.isDigit = false) : Seam (before ++ span) rest := by
  refine .inl fun last same => noDigit last ?_
  rwa [List.getLast?_append_of_ne_nil before filled] at same

/-- Behind an idle character no number is cut in two. -/
theorem Seam.skip {before rest : List Char} {first : Char} (idle : Idle first rest) :
    Seam (before ++ [first]) rest := by
  cases idle with
  | inert isInert =>
      have noDigit : first.isDigit = false := by
        simp only [CLike.isInert, Char.isAlphanum, Bool.and_eq_true, Bool.not_eq_true',
          Bool.or_eq_false_iff] at isInert
        exact isInert.2.2
      exact .of_last (List.cons_ne_nil first []) (by simpa using noDigit)
  | word letter unended =>
      exact .of_last (List.cons_ne_nil first []) (by simpa using isDigit_of_isAlpha letter)
  | number unended =>
      exact .inr (.inr (List.forall_mem_cons.mp unended).2)

/-- A token that is no run does not end in a digit. -/
theorem Token.Lexable.last_noDigit {token : Token} (lexable : token.Lexable)
    (noRun : token.kind.isRun = false) :
    ∀ last ∈ token.spelling.toList.getLast?, last.isDigit = false := by
  have noDigits : (compoundOperators ++ singleOperators).all
      (·.1.toList.all fun char => !char.isDigit) = true := by decide
  rcases lexable.spelling_of_closed noRun with ⟨entry, known, same⟩ | ⟨quote, inside, isQuote, shape⟩
  · intro last isLast
    rw [same] at isLast
    have each := List.all_eq_true.mp (List.all_eq_true.mp noDigits entry known)
    simpa using each last (List.mem_of_getLast? isLast)
  · rw [shape, ← List.cons_append, List.getLast?_concat]
    rcases isQuote with rfl | rfl
    · simp [stringDelimiter]
    · simp [characterDelimiter]

/-- Behind a token no number is cut in two. -/
theorem Seam.token {before span rest : List Char} {token : Token}
    (written : token.WrittenAs span rest) : Seam (before ++ span) rest := by
  cases written with
  | closed lexable noRun => exact .of_last lexable.spelling_sameLine.1 (lexable.last_noDigit noRun)
  | word lexable isRun noNumber ended => exact .of_ended (ended.mono fun _ => isWordChar_of_isDigit)
  | integer nonnegative filled areDigits valued ended position => exact .of_ended ended

/-- A number that is read is not the rest of a longer one. -/
theorem Seam.before_integer {before span rest : List Char} {token : Token}
    (seam : Seam before (span ++ rest)) (written : token.WrittenAs span rest)
    (number : token.kind = .integer) : ∀ last ∈ before.getLast?, last.isDigit = false := by
  cases written with
  | closed lexable noRun =>
      rw [number] at noRun
      cases noRun
  | word lexable isRun noNumber ended => exact absurd number noNumber
  | integer nonnegative filled areDigits valued ended position =>
      obtain ⟨first, more, rfl⟩ := List.exists_cons_of_ne_nil filled
      obtain ⟨next, later, rfl, stopped⟩ := ended
      rcases seam with apart | noDigit | unended
      · exact apart
      · have digit := areDigits first List.mem_cons_self
        rw [noDigit first rfl] at digit
        cases digit
      · rw [unended next (by simp)] at stopped
        cases stopped

/-- Whatever is read from a line stands in it. -/
theorem LineReads.standsIn {line column : Nat} {text : List Char} {found : List Lexeme}
    (reads : LineReads line column text found) (before : List Char)
    (here : column = before.length + 1) (seam : Seam before text) :
    ∀ lexeme ∈ found, lexeme.StandsIn line (before ++ text) := by
  induction reads generalizing before with
  | finish column => exact List.forall_mem_nil _
  | comment column text => exact List.forall_mem_nil _
  | @skip column first rest found idle more ih =>
      have later := ih (before ++ [first]) (by simp [here]) (.skip idle)
      rwa [List.append_assoc, List.singleton_append] at later
  | @token column token span rest found written placed more ih =>
      have later := ih (before ++ span) (by simp [here]; omega) (.token written)
      rw [List.append_assoc] at later
      refine List.forall_mem_cons.mpr ⟨⟨before, span, rest, ?_, ?_, rfl, written, ?_⟩, later⟩
      · exact (List.append_assoc ..).symm
      · rw [← here]
        exact placed
      · exact seam.before_integer written

/-!
### The order of the tokens
-/

/-- Whatever is read from a line is in this line, and not in front of where the reading starts. -/
theorem LineReads.place {line column : Nat} {text : List Char} {found : List Lexeme}
    (reads : LineReads line column text found) :
    ∀ lexeme ∈ found,
      lexeme.token.position.line = line ∧ column ≤ lexeme.token.position.column := by
  induction reads with
  | finish column => exact List.forall_mem_nil _
  | comment column text => exact List.forall_mem_nil _
  | skip idle more ih =>
      intro lexeme member
      exact ⟨(ih lexeme member).1, Nat.le_of_succ_le (ih lexeme member).2⟩
  | token written placed more ih =>
      refine List.forall_mem_cons.mpr ⟨by simp [placed], fun lexeme member => ?_⟩
      exact ⟨(ih lexeme member).1, Nat.le_of_add_right_le (ih lexeme member).2⟩

/-- The tokens of a line follow each other. -/
theorem LineReads.pairwise {line column : Nat} {text : List Char} {found : List Lexeme}
    (reads : LineReads line column text found) : found.Pairwise Lexeme.Precedes := by
  induction reads with
  | finish column => exact .nil
  | comment column text => exact .nil
  | skip idle more ih => exact ih
  | token written placed more ih =>
      refine .cons (fun lexeme member => .inr ?_) ih
      obtain ⟨sameLine, behind⟩ := more.place lexeme member
      have filled := List.length_pos_iff.mpr written.filled
      simp only [Lexeme.stop, placed]
      omega

/-!
### What the tokens leave out

Between the tokens of a line, up to its end or to a comment, stand idle characters only.
-/

/-- Whether the lexeme takes the character at a place. -/
def Lexeme.covers (lexeme : Lexeme) (place : Position) : Bool :=
  lexeme.token.position.line == place.line &&
    (decide (lexeme.token.position.column ≤ place.column) && decide (place.column < lexeme.stop))

/-- The lexemes account for a line up to a cut, where the line ends or a comment starts.  Each
character in front of the cut belongs to exactly one lexeme, or it belongs to none and is inert or
part of a run of letters, digits and underscores that touches the end of the line. -/
structure Accounts (line column : Nat) (text : List Char) (found : List Lexeme) (cut : Nat) :
    Prop where
  inside : cut ≤ text.length
  ends : cut = text.length ∨ lineComment.toList <+: text.drop cut
  within : ∀ lexeme ∈ found, lexeme.token.position.line = line → lexeme.stop ≤ column + cut
  covered : ∀ place char, place < cut → text[place]? = some char →
    found.countP (·.covers ⟨line, column + place⟩) = 1 ∨
      found.countP (·.covers ⟨line, column + place⟩) = 0 ∧
        (isInert char = true ∨
          cut = text.length ∧ ∀ later ∈ text.drop place, isWordChar later = true)

namespace Accounts

variable {line column : Nat}

/-- Where nothing is left to account for, no lexeme is needed. -/
theorem nil {text : List Char} (ends : 0 = text.length ∨ lineComment.toList <+: text) :
    Accounts line column text [] 0 where
  inside := Nat.zero_le _
  ends := ends
  within := List.forall_mem_nil _
  covered := nofun

/-- Lexemes in other lines, or that start behind a place, do not take the character there. -/
theorem countP_covers_eq_zero {found : List Lexeme} {place : Position}
    (apart : ∀ lexeme ∈ found, lexeme.token.position.line ≠ place.line ∨
      place.column < lexeme.token.position.column) :
    found.countP (·.covers place) = 0 := by
  apply List.countP_eq_zero.mpr
  intro lexeme member covered
  simp only [Lexeme.covers, Bool.and_eq_true, beq_iff_eq, decide_eq_true_eq] at covered
  rcases apart lexeme member with elsewhere | behind
  · exact elsewhere covered.1
  · exact absurd covered.2.1 (Nat.not_le_of_lt behind)

/-- An idle character in front is left out.  It is no part of a comment's start. -/
theorem skip {first : Char} {rest : List Char} {found : List Lexeme} {cut : Nat}
    (idle : Idle first rest) (reads : LineReads line (column + 1) rest found)
    (accounts : Accounts line (column + 1) rest found cut) :
    Accounts line column (first :: rest) found (cut + 1) where
  inside := Nat.succ_le_succ accounts.inside
  ends := accounts.ends.imp (congrArg Nat.succ) id
  within := by
    intro lexeme member same
    have stops := accounts.within lexeme member same
    omega
  covered := by
    intro place char below here
    cases place with
    | zero =>
        obtain rfl := Option.some.inj here
        have uncovered := @countP_covers_eq_zero _ ⟨line, column + 0⟩
          fun lexeme member => .inr (reads.place lexeme member).2
        refine .inr ⟨uncovered, idle.inert_or_unended.imp_right fun unended => ⟨?_, unended⟩⟩
        -- A run that goes on to the end of the line leaves no place for a comment.
        rcases accounts.ends with ends | comment
        · exact congrArg Nat.succ ends
        · have slash : '/' ∈ rest :=
            List.mem_of_mem_drop (comment.subset (by decide : '/' ∈ lineComment.toList))
          exact absurd (unended '/' (List.mem_cons_of_mem _ slash)) (by decide)
    | succ place =>
        have moved : column + (place + 1) = column + 1 + place := by omega
        rw [moved]
        have known := accounts.covered place char (Nat.lt_of_succ_lt_succ below) here
        exact known.imp_right (And.imp_right (Or.imp_right (And.imp_left (congrArg Nat.succ))))

/-- A token in front takes the characters that it is written as. -/
theorem token {token : Token} {span rest : List Char} {found : List Lexeme} {cut : Nat}
    (placed : token.position = ⟨line, column⟩)
    (reads : LineReads line (column + span.length) rest found)
    (accounts : Accounts line (column + span.length) rest found cut) :
    Accounts line column (span ++ rest) (⟨token, span.length⟩ :: found) (span.length + cut) where
  inside := by
    rw [List.length_append]
    exact Nat.add_le_add_left accounts.inside _
  ends := by
    rw [List.length_append, List.drop_length_add_append]
    exact accounts.ends.imp_left (congrArg _)
  within := by
    refine List.forall_mem_cons.mpr ⟨fun _ => ?_, fun lexeme member same => ?_⟩
    · simp only [Lexeme.stop, placed]
      omega
    · have stops := accounts.within lexeme member same
      omega
  covered := by
    intro place char below here
    by_cases inSpan : place < span.length
    · left
      rw [List.countP_cons, countP_covers_eq_zero]
      · simp [Lexeme.covers, Lexeme.stop, placed, inSpan]
      · intro lexeme member
        have later := (reads.place lexeme member).2
        exact .inr (Nat.lt_of_lt_of_le (Nat.add_lt_add_left inSpan column) later)
    · obtain ⟨offset, rfl⟩ := Nat.exists_eq_add_of_le (Nat.le_of_not_lt inSpan)
      have uncovered : (⟨token, span.length⟩ : Lexeme).covers
          ⟨line, column + (span.length + offset)⟩ = false := by
        simp [Lexeme.covers, Lexeme.stop, placed, ← Nat.add_assoc]
      rw [List.getElem?_append_right (Nat.le_add_right ..), Nat.add_sub_cancel_left] at here
      rw [List.countP_cons_of_neg (by simp [uncovered]), List.length_append,
        List.drop_length_add_append, ← Nat.add_assoc]
      have known := accounts.covered offset char (Nat.lt_of_add_lt_add_left below) here
      exact known.imp_right (And.imp_right (Or.imp_right (And.imp_left (congrArg _))))

/-- Lexemes in other lines change nothing. -/
theorem extend {text : List Char} {here : List Lexeme} {cut : Nat} (above below : List Lexeme)
    (elsewhere : ∀ lexeme ∈ above ++ below, lexeme.token.position.line ≠ line)
    (accounts : Accounts line column text here cut) :
    Accounts line column text (above ++ here ++ below) cut where
  inside := accounts.inside
  ends := accounts.ends
  within := by
    intro lexeme member same
    have inLine : lexeme ∈ here := by
      rw [List.append_assoc, List.mem_append, List.mem_append] at member
      rcases member with inAbove | inHere | inBelow
      · exact absurd same (elsewhere lexeme (List.mem_append_left _ inAbove))
      · exact inHere
      · exact absurd same (elsewhere lexeme (List.mem_append_right _ inBelow))
    exact accounts.within lexeme inLine same
  covered := by
    intro place char belowCut charHere
    obtain ⟨elsewhereAbove, elsewhereBelow⟩ := List.forall_mem_append.mp elsewhere
    rw [List.countP_append, List.countP_append,
      countP_covers_eq_zero fun lexeme member => .inl (elsewhereAbove lexeme member),
      countP_covers_eq_zero fun lexeme member => .inl (elsewhereBelow lexeme member),
      Nat.zero_add, Nat.add_zero]
    exact accounts.covered place char belowCut charHere

end Accounts

/-- Whatever is read from a line accounts for it. -/
theorem LineReads.accounts {line column : Nat} {text : List Char} {found : List Lexeme}
    (reads : LineReads line column text found) : ∃ cut, Accounts line column text found cut := by
  induction reads with
  | finish column => exact ⟨0, .nil (.inl rfl)⟩
  | comment column text => exact ⟨0, .nil (.inr (List.prefix_append ..))⟩
  | skip idle more ih =>
      obtain ⟨cut, accounts⟩ := ih
      exact ⟨_, accounts.skip idle more⟩
  | token written placed more ih =>
      obtain ⟨cut, accounts⟩ := ih
      exact ⟨_, accounts.token placed more⟩

/-!
### Reading a text

The lines of a text are read one after the other, and the number of a line keeps its tokens apart
from all others.
-/

/-- From the given number on, these lines hold these lexemes. -/
inductive LinesRead : (line : Nat) → List (List Char) → List Lexeme → Prop where
  | nil (line : Nat) : LinesRead line [] []
  | cons {line : Nat} {text : List Char} {later : List (List Char)} {here below : List Lexeme}
      (reads : LineReads line 1 text here) (more : LinesRead (line + 1) later below) :
      LinesRead line (text :: later) (here ++ below)

namespace LinesRead

variable {line : Nat} {texts : List (List Char)} {found : List Lexeme}

/-- Lines are read as the scanner reads them. -/
theorem of_scanLines (sameLine : ∀ text ∈ texts, '\n' ∉ text)
    (read : scanLines Recognizer.usual line texts = .ok found) : LinesRead line texts found := by
  induction texts generalizing line found with
  | nil =>
      obtain rfl := Except.ok.inj read
      exact .nil line
  | cons text later ih =>
      rw [List.forall_mem_cons] at sameLine
      rw [scanLines] at read
      cases readHere : scanLine Recognizer.usual line 1 0 text with
      | error cause =>
          rw [readHere] at read
          cases read
      | ok here =>
          cases readBelow : scanLines Recognizer.usual (line + 1) later with
          | error cause =>
              rw [readHere, readBelow] at read
              cases read
          | ok below =>
              rw [readHere, readBelow] at read
              obtain rfl := Except.ok.inj read
              exact .cons (.of_scanLine sameLine.1 readHere) (ih sameLine.2 readBelow)

/-- Nothing that is read is above the first line. -/
theorem le_line (reads : LinesRead line texts found) :
    ∀ lexeme ∈ found, line ≤ lexeme.token.position.line := by
  induction reads with
  | nil line => exact List.forall_mem_nil _
  | cons reads more ih =>
      refine List.forall_mem_append.mpr ⟨fun lexeme member => ?_, fun lexeme member => ?_⟩
      · exact Nat.le_of_eq (reads.place lexeme member).1.symm
      · exact Nat.le_of_succ_le (ih lexeme member)

/-- Whatever is read stands in one of the lines. -/
theorem standsIn (reads : LinesRead line texts found) :
    ∀ lexeme ∈ found, ∃ index text, texts[index]? = some text ∧
      lexeme.StandsIn (index + line) text := by
  induction reads with
  | nil line => exact List.forall_mem_nil _
  | @cons line text later here below reads more ih =>
      refine List.forall_mem_append.mpr ⟨fun lexeme member => ?_, fun lexeme member => ?_⟩
      · have stands := reads.standsIn [] rfl (.inl nofun) lexeme member
        exact ⟨0, text, rfl, by rwa [Nat.zero_add]⟩
      · obtain ⟨index, other, known, stands⟩ := ih lexeme member
        exact ⟨index + 1, other, known, by rwa [Nat.add_right_comm]⟩

/-- The tokens of a text follow each other. -/
theorem pairwise (reads : LinesRead line texts found) : found.Pairwise Lexeme.Precedes := by
  induction reads with
  | nil line => exact .nil
  | cons reads more ih =>
      refine List.pairwise_append.mpr ⟨reads.pairwise, ih, fun one inHere two inBelow => .inl ?_⟩
      rw [(reads.place one inHere).1]
      exact more.le_line two inBelow

/-- What is read accounts for each of the lines. -/
theorem accounts (reads : LinesRead line texts found) :
    ∀ index text, texts[index]? = some text → ∃ cut, Accounts (index + line) 1 text found cut := by
  induction reads with
  | nil line => nofun
  | @cons line text later here below reads more ih =>
      intro index other known
      cases index with
      | zero =>
          obtain rfl := Option.some.inj known
          obtain ⟨cut, accounts⟩ := reads.accounts
          rw [Nat.zero_add]
          refine ⟨cut, accounts.extend [] below fun lexeme member => ?_⟩
          exact Nat.ne_of_gt (more.le_line lexeme member)
      | succ index =>
          obtain ⟨cut, accounts⟩ := ih index other known
          have extended := accounts.extend here [] fun lexeme member => by
            rw [List.append_nil] at member
            rw [(reads.place lexeme member).1]
            omega
          rw [List.append_nil] at extended
          exact ⟨cut, by rwa [Nat.add_right_comm]⟩

end LinesRead

/-- A text that is cut into tokens is read line by line. -/
theorem linesRead_of_lex {source : String} {tokens : List Token} (read : lex source = .ok tokens) :
    ∃ found, lexemes source = .ok found ∧ found.map Lexeme.token = tokens ∧
      LinesRead 1 (Text.lines source.toList) found := by
  rw [lex] at read
  cases readAll : lexemes source with
  | error cause =>
      rw [readAll] at read
      cases read
  | ok found =>
      rw [readAll] at read
      exact ⟨found, rfl, Except.ok.inj read,
        .of_scanLines (fun _ => Text.not_mem_of_mem_lines) readAll⟩

/-- The tokens of a text can be written down. -/
theorem lexable_of_lex {source : String} {tokens : List Token} (read : lex source = .ok tokens) :
    ∀ token ∈ tokens, token.Lexable := by
  obtain ⟨found, -, rfl, reads⟩ := linesRead_of_lex read
  intro token member
  obtain ⟨lexeme, known, rfl⟩ := List.mem_map.mp member
  obtain ⟨_, _, _, _, _, _, _, _, _, written, _⟩ := reads.standsIn lexeme known
  exact written.lexable

/-- The tokens of a text stand where their positions say: in an existing line, from their column on,
written as they are spelled, numbers possibly with zeros in front.  Words and numbers are as long as
they can be.  In the order of the list, each token starts behind the one before it, and in one line
it starts where that one has ended or later. -/
theorem lex_spans {source : String} {tokens : List Token} (read : lex source = .ok tokens) :
    ∃ found, lexemes source = .ok found ∧ found.map Lexeme.token = tokens ∧
      (∀ lexeme ∈ found, ∃ index text, (Text.lines source.toList)[index]? = some text ∧
        lexeme.StandsIn (index + 1) text) ∧
      found.Pairwise Lexeme.Precedes := by
  obtain ⟨found, readAll, same, reads⟩ := linesRead_of_lex read
  exact ⟨found, readAll, same, reads.standsIn, reads.pairwise⟩

theorem lex_spans_two_lines :
    ∃ found, lexemes "é x1=007; // note\n\t'ß' \"a b\"<=end" = .ok found ∧
      found.map Lexeme.token =
        [⟨.identifier, .text "x1", ⟨1, 3⟩⟩, ⟨.assign, .text "=", ⟨1, 5⟩⟩,
          ⟨.integer, .integer 7, ⟨1, 6⟩⟩, ⟨.semicolon, .text ";", ⟨1, 9⟩⟩,
          ⟨.character, .character 'ß', ⟨2, 2⟩⟩, ⟨.string, .text "a b", ⟨2, 6⟩⟩,
          ⟨.lessOrEqual, .text "<=", ⟨2, 11⟩⟩] ∧
      (∀ lexeme ∈ found, ∃ index text,
        (Text.lines "é x1=007; // note\n\t'ß' \"a b\"<=end".toList)[index]? = some text ∧
          lexeme.StandsIn (index + 1) text) ∧
      found.Pairwise Lexeme.Precedes :=
  lex_spans rfl

/-- No character that says something is lost.  In each line of a text, up to its end or to a
comment, each character belongs to exactly one token, or it belongs to none and is inert or part of
a run of letters, digits and underscores that touches the end of the line. -/
theorem lex_accounts {source : String} {tokens : List Token} (read : lex source = .ok tokens) :
    ∃ found, lexemes source = .ok found ∧ found.map Lexeme.token = tokens ∧
      (∀ lexeme ∈ found, ∃ index text, (Text.lines source.toList)[index]? = some text ∧
        lexeme.StandsIn (index + 1) text) ∧
      ∀ index text, (Text.lines source.toList)[index]? = some text →
        ∃ cut, Accounts (index + 1) 1 text found cut := by
  obtain ⟨found, readAll, same, reads⟩ := linesRead_of_lex read
  exact ⟨found, readAll, same, reads.standsIn, reads.accounts⟩

theorem lex_accounts_unended :
    ∃ found, lexemes "a1b;//\n(§ x_ x_" = .ok found ∧
      found.map Lexeme.token =
        [⟨.identifier, .text "a1b", ⟨1, 1⟩⟩, ⟨.semicolon, .text ";", ⟨1, 4⟩⟩,
          ⟨.leftParen, .text "(", ⟨2, 1⟩⟩, ⟨.identifier, .text "x_", ⟨2, 4⟩⟩] ∧
      (∀ lexeme ∈ found, ∃ index text,
        (Text.lines "a1b;//\n(§ x_ x_".toList)[index]? = some text ∧
          lexeme.StandsIn (index + 1) text) ∧
      ∀ index text, (Text.lines "a1b;//\n(§ x_ x_".toList)[index]? = some text →
        ∃ cut, Accounts (index + 1) 1 text found cut :=
  lex_accounts rfl

end CLike
