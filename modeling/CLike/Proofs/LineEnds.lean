/-
Module: CLike.Proofs.LineEnds
Layer: Proofs
Purpose: What becomes of a word or number that touches the end of its line.  It gives no token
  itself, but numbers inside it do, unless its digits all stand at its end.
Main exports: Unended, EndsBare, DigitsLast, scanLine_append_blank, scanLine_integer_eq_nil_iff,
  lex_at_line_end
-/
import CLike.Proofs.LineSeams
import CLike.Proofs.Spans
import Mathlib.Data.List.Chain

namespace CLike

/-!
### A blank behind the text

A blank behind the text is not part of anything that starts before it.  It makes a difference to a
run only which without it would touch the end.
-/

/-- The text is one word or one number up to its end. -/
inductive Unended (first : Char) (rest : List Char) : Prop where
  | word (letter : first.isAlpha = true) (wordChars : ∀ char ∈ rest, isWordChar char = true)
  | number (digits : ∀ char ∈ first :: rest, char.isDigit = true)

/-- An unended text is made of characters of words. -/
theorem Unended.wordChars {first : Char} {rest : List Char} (unended : Unended first rest) :
    ∀ char ∈ first :: rest, isWordChar char = true := by
  cases unended with
  | word letter wordChars =>
      exact List.forall_mem_cons.mpr ⟨isWordChar_of_isAlpha letter, wordChars⟩
  | number digits => exact fun char member => isWordChar_of_isDigit (digits char member)

/-- A mark without blanks starts a text exactly when it starts the text with a blank behind it. -/
theorem prefix_append_blank {mark text : List Char} (visible : ' ' ∉ mark) :
    mark <+: text ++ [' '] ↔ mark <+: text := by
  constructor
  · intro starts
    rcases List.prefix_concat_iff.mp starts with rfl | starts
    · exact absurd (by simp) visible
    · exact starts
  · exact fun starts => starts.trans (List.prefix_append ..)

/-- Where a run is ended inside a text, it does not matter what follows the text. -/
theorem takeWhile_append_of_ended {inClass : Char → Bool} {text : List Char}
    (left : text.dropWhile inClass ≠ []) (more : List Char) :
    (text ++ more).takeWhile inClass = text.takeWhile inClass := by
  rw [List.takeWhile_append, if_neg]
  intro whole
  have parts := congrArg List.length (List.takeWhile_append_dropWhile (p := inClass) (l := text))
  rw [List.length_append, whole] at parts
  exact left (List.length_eq_zero_iff.mp (Nat.add_eq_left.mp parts))

theorem isEmpty_dropWhile_append_of_ended {inClass : Char → Bool} {text : List Char}
    (left : text.dropWhile inClass ≠ []) (more : List Char) :
    ((text ++ more).dropWhile inClass).isEmpty = (text.dropWhile inClass).isEmpty := by
  rw [List.dropWhile_append, if_neg (mt List.isEmpty_iff.mp left), List.isEmpty_eq_false_iff.mpr left,
    List.isEmpty_eq_false_iff]
  exact List.append_ne_nil_of_left_ne_nil left more

/-- A run that is not ended by the blank is the same without it. -/
theorem endedRun?_append_blank {inClass : Char → Bool} {text : List Char}
    (ended : ¬ ∀ char ∈ text, inClass char = true) :
    endedRun? inClass (text ++ [' ']) = endedRun? inClass text := by
  have left : text.dropWhile inClass ≠ [] := mt List.dropWhile_eq_nil_iff.mp ended
  rw [endedRun?, endedRun?, takeWhile_append_of_ended left, isEmpty_dropWhile_append_of_ended left]

/-- Words of one size without blanks are not completed by a blank. -/
theorem Vocabulary.read?_append_blank {vocabulary : Vocabulary} {width : Nat}
    (sizes : ∀ entry ∈ vocabulary, entry.1.toList.length = width)
    (visible : ∀ entry ∈ vocabulary, ' ' ∉ entry.1.toList) (text : List Char) :
    vocabulary.read? width (text ++ [' ']) = vocabulary.read? width text := by
  apply Vocabulary.read?_congr
  intro entry member
  rw [← sizes entry member, ← List.prefix_iff_eq_take, ← List.prefix_iff_eq_take]
  exact prefix_append_blank (visible entry member)

namespace Recognizer

theorem string_append_blank (text : List Char) :
    string.read? (text ++ [' ']) = string.read? text := by
  cases text with
  | nil => rfl
  | cons first body =>
      rw [List.cons_append, read?, read?]
      by_cases unclosed : body.dropWhile (· ≠ stringDelimiter) = []
      · rw [List.dropWhile_append, unclosed]
        rfl
      · rw [isEmpty_dropWhile_append_of_ended unclosed, takeWhile_append_of_ended unclosed]

theorem character_append_blank (text : List Char) :
    character.read? (text ++ [' ']) = character.read? text := by
  rcases text with - | ⟨first, - | ⟨value, - | ⟨last, rest⟩⟩⟩
  · rfl
  · rfl
  · exact if_congr Iff.rfl (if_neg (by decide)) rfl
  · rfl

/-- Where neither a blank nor an unended run starts, every recognizer reads the same. -/
theorem read?_append_blank {first : Char} {rest : List Char} (visible : Text.isBlank first = false)
    (ended : ¬Unended first rest) (recognizer : Recognizer) :
    recognizer.read? (first :: rest ++ [' ']) = recognizer.read? (first :: rest) := by
  cases recognizer with
  | comment =>
      have same : lineComment.toList <+: first :: rest ++ [' '] ↔
          lineComment.toList <+: first :: rest := prefix_append_blank (by decide)
      rw [← List.isPrefixOf_iff_prefix, ← List.isPrefixOf_iff_prefix, ← Bool.eq_iff_iff] at same
      rw [read?, read?, same]
  | compound => exact Vocabulary.read?_append_blank (by decide) (by decide) _
  | single => exact Vocabulary.read?_append_blank (by decide) (by decide) _
  | blank =>
      have unopened : blank.opens first = false := visible
      exact (read?_eq_none unopened (rest ++ [' '])).trans (read?_eq_none unopened rest).symm
  | string => exact string_append_blank _
  | character => exact character_append_blank _
  | integer => rw [read?, read?, endedRun?_append_blank fun digits => ended (.number digits)]
  | word =>
      rw [List.cons_append, read?, read?]
      by_cases letter : first.isAlpha = true
      · have endedWord : ¬ ∀ char ∈ first :: rest, isWordChar char = true :=
          fun wordChars => ended (.word letter (List.forall_mem_cons.mp wordChars).2)
        rw [← List.cons_append, endedRun?_append_blank endedWord]
      · rw [if_neg letter, if_neg letter]

theorem usual_append_blank {first : Char} {rest : List Char} (visible : Text.isBlank first = false)
    (ended : ¬Unended first rest) :
    usual.findSome? (·.read? (first :: rest ++ [' '])) =
      usual.findSome? (·.read? (first :: rest)) :=
  congrArg usual.findSome? (funext (read?_append_blank visible ended))

/-- Ended by a blank, a run is read as one token, if it is not a number out of range. -/
theorem usual_unended {first : Char} {rest : List Char} (unended : Unended first rest) :
    (∃ kind literal, kind.isRun = true ∧ usual.findSome? (·.read? (first :: rest ++ [' '])) =
      some (.token (first :: rest).length kind literal)) ∨
    ∃ cause, usual.findSome? (·.read? (first :: rest ++ [' '])) = some (.fault cause) := by
  cases unended with
  | word letter wordChars =>
      have read := usual_word letter wordChars ⟨' ', [], rfl, by decide⟩
      exact .inl ⟨_, _, (kind_word rfl).1, read⟩
  | number digits =>
      have read := usual_digits (List.cons_ne_nil first rest) digits ⟨' ', [], rfl, by decide⟩
      by_cases inRange : Nat.ofDigitChars 10 (first :: rest) 0 ≤ largestInteger
      · rw [if_pos inRange] at read
        exact .inl ⟨_, _, rfl, read⟩
      · rw [if_neg inRange] at read
        exact .inr ⟨_, read⟩

/-- In characters of words only numbers are read: a word would touch the end. -/
theorem usual_wordChars {first : Char} {rest : List Char}
    (wordChars : ∀ char ∈ first :: rest, isWordChar char = true) :
    usual.findSome? (·.read? (first :: rest)) =
      [integer].findSome? (·.read? (first :: rest)) := by
  have noWord : word.read? (first :: rest) = none := by
    have passed := List.dropWhile_eq_nil_iff.mpr wordChars
    rw [read?, endedRun?, passed]
    simp
  have before : [comment, compound, single, blank, string, character].findSome?
      (·.read? (first :: rest)) = none := by
    apply List.findSome?_eq_none_iff.mpr
    exact declined_of_opens (opens_of_isWordChar (List.forall_mem_cons.mp wordChars).1) rest
  have order : usual = [comment, compound, single, blank, string, character] ++
      ([integer] ++ [word]) := rfl
  rw [order, List.findSome?_append, before, Option.none_or, List.findSome?_append]
  simp [noWord]

end Recognizer

/-- In characters of words up to the end of the line only numbers are read. -/
theorem scanLine_wordChars {text : List Char}
    (wordChars : ∀ char ∈ text, isWordChar char = true) (line column covered : Nat) :
    scanLine Recognizer.usual line column covered text =
      scanLine [.integer] line column covered text := by
  induction text generalizing column covered with
  | nil => rw [scanLine, scanLine]
  | cons first rest ih =>
      have later := ih (List.forall_mem_cons.mp wordChars).2
      cases covered with
      | succ covered => rw [scanLine, scanLine, later]
      | zero => simp only [scanLine, Recognizer.usual_wordChars wordChars, later]

/-!
### With and without a blank behind the line

The scans of a line with a blank behind it and of the line alone go the same way up to a run that
touches the end of the line.  With the blank that run is the last lexeme.  Alone it is not read as a
whole, but it is not passed as a whole either: its characters are dropped one by one, and where a
number among them is ended by a letter or an underscore, the number is read.
-/

theorem map_nil_append (outcome : Except LexicalError (List Lexeme)) :
    outcome.map ([] ++ ·) = outcome := by
  cases outcome <;> rfl

/-- How a text is read that is read as `found` with a blank behind it. -/
inductive EndsBare (line column : Nat) (text : List Char) : (found : List Lexeme) →
    Except LexicalError (List Lexeme) → Prop where
  /-- No run touches the end. -/
  | closed {found : List Lexeme}
      (apart : ∀ last ∈ found.getLast?, last.token.kind.isRun = true →
        last.stop ≠ column + text.length) : EndsBare line column text found (.ok found)
  /-- The last lexeme touches the end, and only the numbers in it are read. -/
  | unended {before : List Lexeme} {last : Lexeme} {start run : List Char}
      (shape : text = start ++ run) (isRun : last.token.kind.isRun = true)
      (placed : last.token.position = ⟨line, column + start.length⟩)
      (width : last.width = run.length) :
      EndsBare line column text (before ++ [last])
        ((scanLine [.integer] line (column + start.length) 0 run).map (before ++ ·))

namespace EndsBare

variable {line column : Nat} {first : Char} {rest text : List Char} {found : List Lexeme}
  {outcome : Except LexicalError (List Lexeme)}

theorem nothing : EndsBare line column text [] (.ok []) :=
  .closed fun last isLast => absurd isLast (Option.not_mem_none last)

/-- A character is passed. -/
theorem skip (later : EndsBare line (column + 1) rest found outcome) :
    EndsBare line column (first :: rest) found outcome := by
  cases later with
  | closed apart =>
      refine .closed fun last isLast isRun => ?_
      rw [List.length_cons, Nat.add_comm rest.length, ← Nat.add_assoc]
      exact apart last isLast isRun
  | @unended before last start run shape isRun placed width =>
      have moved : column + 1 + start.length = column + (first :: start).length := by
        rw [List.length_cons, Nat.add_assoc, Nat.add_comm 1]
      rw [moved] at placed ⊢
      exact .unended (congrArg (first :: ·) shape) isRun placed width

/-- A lexeme is found that does not touch the end. -/
theorem cons {lexeme : Lexeme} (later : EndsBare line column text found outcome)
    (apart : lexeme.token.kind.isRun = true → lexeme.stop ≠ column + text.length) :
    EndsBare line column text (lexeme :: found) (outcome.map (lexeme :: ·)) := by
  cases later with
  | closed apartLater =>
      refine .closed fun last isLast => ?_
      cases found with
      | nil =>
          obtain rfl : lexeme = last := by simpa using isLast
          exact apart
      | cons next found => exact apartLater last (by simpa using isLast)
  | @unended before last start run shape isRun placed width =>
      have joined : ((scanLine [.integer] line (column + start.length) 0 run).map (before ++ ·)).map
          (lexeme :: ·) = (scanLine [.integer] line (column + start.length) 0 run).map
            (lexeme :: before ++ ·) := by
        cases scanLine [.integer] line (column + start.length) 0 run <;> rfl
      rw [joined]
      exact @EndsBare.unended line column text (lexeme :: before) _ _ _ shape isRun placed width

end EndsBare

/-- A run that is read is ended, so it does not touch the end of its line. -/
theorem stop_lt_of_isRun {recognizer : Recognizer} {text : List Char} {width : Nat} {kind : Kind}
    {literal : Literal} (sameLine : '\n' ∉ text)
    (read : recognizer.read? text = some (.token width kind literal)) (isRun : kind.isRun = true)
    (column : Nat) : column + width < column + text.length := by
  obtain ⟨span, rest, rfl, rfl, written⟩ := Recognizer.fits_of_read? sameLine read
  have more : rest ≠ [] := by
    cases written .unplaced with
    | closed lexable noRun =>
        rw [isRun] at noRun
        cases noRun
    | word lexable isRun noNumber ended =>
        obtain ⟨next, more, rfl, -⟩ := ended
        exact List.cons_ne_nil next more
    | integer nonnegative filled areDigits valued ended position =>
        obtain ⟨next, more, rfl, -⟩ := ended
        exact List.cons_ne_nil next more
  rw [List.length_append]
  exact Nat.add_lt_add_left (Nat.lt_add_of_pos_right (List.length_pos_iff.mpr more)) column

/-- An unended run is the last lexeme where a blank is behind it. -/
theorem Unended.endsBare {first : Char} {rest : List Char} {line column : Nat}
    {found : List Lexeme} (unended : Unended first rest)
    (read : scanLine Recognizer.usual line column 0 (first :: rest ++ [' ']) = .ok found) :
    EndsBare line column (first :: rest) found
      (scanLine Recognizer.usual line column 0 (first :: rest)) := by
  rcases Recognizer.usual_unended unended with ⟨kind, literal, isRun, whole⟩ | ⟨cause, fault⟩
  · rw [scanLine_token (List.cons_ne_nil first rest) whole, scanLine_blank (by decide),
      scanLine] at read
    obtain rfl := Except.ok.inj read
    rw [scanLine_wordChars unended.wordChars, ← map_nil_append (scanLine [.integer] ..)]
    exact @EndsBare.unended line column _ [] _ [] _ rfl isRun rfl rfl
  · rw [List.cons_append] at read fault
    rw [scanLine, fault] at read
    cases read

/-- Whatever is found with a blank behind the text says how the text is read alone. -/
theorem scanLine_append_blank {line column covered : Nat} {text : List Char}
    {found : List Lexeme} (sameLine : '\n' ∉ text)
    (read : scanLine Recognizer.usual line column covered (text ++ [' ']) = .ok found) :
    EndsBare line column text found (scanLine Recognizer.usual line column covered text) := by
  induction text generalizing column covered found with
  | nil =>
      have nothing : found = [] := by
        rw [List.nil_append] at read
        cases covered with
        | zero =>
            rw [scanLine_blank (by decide), scanLine] at read
            exact (Except.ok.inj read).symm
        | succ covered =>
            rw [scanLine, scanLine] at read
            exact (Except.ok.inj read).symm
      subst nothing
      rw [scanLine]
      exact .nothing
  | cons first rest ih =>
      have sameLineRest : '\n' ∉ rest := fun member => sameLine (List.mem_cons_of_mem _ member)
      cases covered with
      | succ covered =>
          rw [List.cons_append, scanLine] at read
          rw [scanLine]
          exact (ih sameLineRest read).skip
      | zero =>
          cases isBlank : Text.isBlank first with
          | true =>
              rw [List.cons_append, scanLine_blank isBlank] at read
              rw [scanLine_blank isBlank]
              exact (ih sameLineRest read).skip
          | false =>
              -- An unended run decides about the whole rest.  Anything else is read as before,
              -- and the rest of the text is shorter.
              by_cases unended : Unended first rest
              · exact unended.endsBare read
              have same := Recognizer.usual_append_blank isBlank unended
              rw [List.cons_append] at same read
              rw [scanLine, same] at read
              rw [scanLine]
              cases found? : Recognizer.usual.findSome? (·.read? (first :: rest)) with
              | none =>
                  rw [found?] at read
                  exact (ih sameLineRest read).skip
              | some reading =>
                  rw [found?] at read
                  cases reading with
                  | comment =>
                      obtain rfl := Except.ok.inj read
                      exact .nothing
                  | blank width => exact (ih sameLineRest read).skip
                  | token width kind literal =>
                      obtain ⟨recognizer, -, readHere⟩ := List.exists_of_findSome?_eq_some found?
                      cases readLater : scanLine Recognizer.usual line (column + 1) (width - 1)
                          (rest ++ [' ']) with
                      | error cause =>
                          simp only [readLater] at read
                          cases read
                      | ok later =>
                          simp only [readLater] at read
                          obtain rfl := Except.ok.inj read
                          refine (ih sameLineRest readLater).skip.cons fun isRun => ?_
                          exact Nat.ne_of_lt (stop_lt_of_isRun sameLine readHere isRun column)
                  | fault cause => cases read

/-!
### Numbers inside a run
-/

/-- Behind each digit there is another digit or nothing. -/
def DigitsLast (text : List Char) : Prop :=
  text.IsChain fun one two => one.isDigit = true → two.isDigit = true

theorem map_cons_ne_nil (lexeme : Lexeme) (outcome : Except LexicalError (List Lexeme)) :
    outcome.map (lexeme :: ·) ≠ .ok [] := by
  cases outcome <;> simp [Except.map]

/-- No number is read in a text exactly when all its digits stand at its end. -/
theorem scanLine_integer_eq_nil_iff {line column : Nat} {text : List Char} :
    scanLine [.integer] line column 0 text = .ok [] ↔ DigitsLast text := by
  induction text generalizing column with
  | nil => exact iff_of_true (by rw [scanLine]) .nil
  | cons first rest ih =>
      cases run : endedRun? Char.isDigit (first :: rest) with
      | none =>
          have passed : scanLine [.integer] line column 0 (first :: rest) =
              scanLine [.integer] line (column + 1) 0 rest := by
            simp [scanLine, Recognizer.read?, run]
          rw [passed, ih, DigitsLast, DigitsLast, List.isChain_cons]
          refine ⟨fun later => ⟨fun next isNext digit => ?_, later⟩, And.right⟩
          exact endedRun?_eq_none digit run next (List.mem_cons_of_mem _ (List.mem_of_head? isNext))
      | some digits =>
          have found : scanLine [.integer] line column 0 (first :: rest) ≠ .ok [] := by
            simp only [scanLine, List.findSome?_cons, Recognizer.read?, run, Option.map_some]
            by_cases inRange : Nat.ofDigitChars 10 digits 0 ≤ largestInteger
            · simp only [if_pos inRange]
              exact map_cons_ne_nil _ _
            · simp [if_neg inRange]
          have interrupted : ¬DigitsLast (first :: rest) := by
            obtain ⟨filled, areDigits, more, shape, next, after, rfl, foreign⟩ :=
              endedRun?_eq_some run
            intro chain
            rw [DigitsLast, shape, List.isChain_append] at chain
            have isLast := List.getLast?_eq_some_getLast filled
            have digit := chain.2.2 _ isLast next rfl (areDigits _ (List.getLast_mem filled))
            rw [foreign] at digit
            cases digit
          exact iff_of_false found interrupted

/-!
### Lines
-/

/-- The lexeme is a word or a number and goes up to the end of the line. -/
def Lexeme.TouchesEnd (line : String) (lexeme : Lexeme) : Prop :=
  lexeme.token.kind.isRun = true ∧ lexeme.stop = line.toList.length + 1

/-- A text without newlines is scanned as one line. -/
theorem lexemes_of_sameLine {source : String} (sameLine : '\n' ∉ source.toList) :
    lexemes source = scanLine Recognizer.usual 1 1 0 source.toList := by
  rw [lexemes_eq_scanFrom, scanFrom_sameLine sameLine]

/-- What follows some lexemes gives no tokens exactly when it is nothing. -/
theorem map_token_append_eq_ok_iff {before : List Lexeme}
    {later : Except LexicalError (List Lexeme)} :
    (later.map (before ++ ·)).map (·.map Lexeme.token) = .ok (before.map Lexeme.token) ↔
      later = .ok [] := by
  cases later <;> simp [Except.map]

/-- A line that can be read with a blank behind it gives the same tokens alone, unless the last of
them is a word or a number that touches the end of the line.  That one is then missing, and in its
place are the numbers inside it, if they are in range.  There are none of them exactly when all its
digits stand at its end.  So a name that is a line by itself gives no token exactly then. -/
theorem lex_at_line_end (line : String) :
    ('\n' ∉ line.toList → ∀ found, lexemes (line ++ " ") = .ok found →
      ((∀ last ∈ found.getLast?, ¬last.TouchesEnd line) →
        lex line = .ok (found.map Lexeme.token)) ∧
      ∀ before last, found = before ++ [last] → last.TouchesEnd line →
        let column := last.token.position.column
        let run := line.toList.drop (column - 1)
        lexemes line = (scanLine [.integer] 1 column 0 run).map (before ++ ·) ∧
        (lex line = .ok (before.map Lexeme.token) ↔ DigitsLast run)) ∧
    (isName line = true → (lex line = .ok [] ↔ DigitsLast line.toList)) := by
  constructor
  · intro sameLine found read
    have sameLineBlank : '\n' ∉ (line ++ " ").toList := by simp [sameLine]
    rw [lexemes_of_sameLine sameLineBlank, String.toList_append] at read
    have bare := scanLine_append_blank sameLine read
    rw [← lexemes_of_sameLine sameLine] at bare
    rw [lex]
    generalize lexemes line = outcome at bare ⊢
    cases bare with
    | closed apart =>
        refine ⟨fun _ => rfl, ?_⟩
        rintro before last rfl ⟨isRun, touches⟩
        exact absurd (touches.trans (Nat.add_comm ..)) (apart last (by simp) isRun)
    | @unended before last start run shape isRun placed width =>
        have touches : last.TouchesEnd line := by
          refine ⟨isRun, ?_⟩
          simp only [Lexeme.stop, placed, width, shape, List.length_append]
          omega
        constructor
        · intro apart
          exact absurd touches (apart last (by simp))
        · intro front final same _
          obtain ⟨rfl, lasts⟩ := List.append_inj' same rfl
          obtain rfl := (List.cons.inj lasts).1
          have there : line.toList.drop (1 + start.length - 1) = run := by
            rw [shape, Nat.add_sub_cancel_left, List.drop_left]
          simp only [placed, there]
          exact ⟨trivial, map_token_append_eq_ok_iff.trans scanLine_integer_eq_nil_iff⟩
  · intro named
    obtain ⟨first, rest, shape, letter, wordChars⟩ := isName_iff.mp named
    have allWordChars : ∀ char ∈ line.toList, isWordChar char = true := by
      rw [shape]
      exact List.forall_mem_cons.mpr ⟨isWordChar_of_isAlpha letter, wordChars⟩
    have sameLine : '\n' ∉ line.toList := fun member => absurd (allWordChars _ member) (by decide)
    rw [lex, lexemes_of_sameLine sameLine, scanLine_wordChars allWordChars,
      ← map_nil_append (scanLine [.integer] ..)]
    exact (@map_token_append_eq_ok_iff []).trans scanLine_integer_eq_nil_iff

/-- A name can even be refused for a number inside it. -/
example : lex "x99999999999y" = .error (.integerOutOfRange "99999999999") := by decide +kernel

/-- A word at the end of its line gives no token, but the number in its middle does. -/
theorem lex_at_line_end_number_inside :
    let word : Lexeme := ⟨⟨.identifier, .text "a1b", ⟨1, 5⟩⟩, 3⟩
    let before : List Lexeme := [⟨⟨.identifier, .text "x", ⟨1, 1⟩⟩, 1⟩,
      ⟨⟨.assign, .text "=", ⟨1, 3⟩⟩, 1⟩]
    '\n' ∉ "x = a1b".toList ∧ lexemes ("x = a1b" ++ " ") = .ok (before ++ [word]) ∧
      word.TouchesEnd "x = a1b" ∧ lex "x = a1b" ≠ .ok (before.map Lexeme.token) ∧
      lex "x = " = .ok (before.map Lexeme.token) ∧
      isName "a_b1" = true ∧ lex "a_b1" = .ok [] := by
  intro word before
  have sameLine : '\n' ∉ "x = a1b".toList := by decide
  have read : lexemes ("x = a1b" ++ " ") = .ok (before ++ [word]) := by decide +kernel
  have touches : word.TouchesEnd "x = a1b" := ⟨by decide, by decide⟩
  have digitInside : ¬DigitsLast ("x = a1b".toList.drop 4) := by
    rw [DigitsLast]
    decide
  have sameLineShort : '\n' ∉ "x = ".toList := by decide
  have readShort : lexemes ("x = " ++ " ") = .ok before := by decide +kernel
  have apart : ∀ last ∈ before.getLast?, ¬last.TouchesEnd "x = " := by
    rintro last isLast ⟨isRun, -⟩
    obtain rfl := Option.some.inj isLast
    revert isRun
    decide
  have named : isName "a_b1" = true := by decide
  have digitLast : DigitsLast "a_b1".toList := by
    rw [DigitsLast]
    decide
  obtain ⟨-, numbers⟩ := (lex_at_line_end "x = a1b").1 sameLine _ read
  obtain ⟨short, -⟩ := (lex_at_line_end "x = ").1 sameLineShort _ readShort
  refine ⟨sameLine, read, touches, ?_, short apart, named, ?_⟩
  · exact mt (numbers before word rfl touches).2.mp digitInside
  · exact ((lex_at_line_end "a_b1").2 named).mpr digitLast

end CLike
