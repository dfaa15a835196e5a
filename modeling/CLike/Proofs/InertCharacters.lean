/-
Module: CLike.Proofs.InertCharacters
Layer: Proofs
Purpose: Characters that are part of no mark, word, number or line end are all alike to the scan:
  where they are exchanged for others of their sort, whatever their width or their white space
  property, nothing changes but what stands inside strings and characters.
Main exports: isActive, KeepsActive, Token.redrawn, scanLine_withoutBlank,
  Recognizer.read?_map, scanLine_map, lexemesWith_map, lex_map
-/
import CLike.Proofs.Readings

namespace CLike

/-!
### Active characters

A word goes on with an underscore, though none starts with one, and a newline ends its line.  So
these two are inert where a lexeme could start, and still not to be exchanged for others.
-/

/-- Whether the scan looks for this very character somewhere: it is part of an operator, a quote, a
letter, a digit, an underscore or a newline. -/
def isActive (char : Char) : Bool := !isInert char || char == '_' || char == '\n'

theorem isActive_of_isWordChar {char : Char} (wordChar : isWordChar char = true) :
    isActive char = true := by
  rw [isWordChar, Bool.or_eq_true] at wordChar
  rcases wordChar with alphanumeric | underscore
  · simp [isActive, isInert, alphanumeric]
  · simp [isActive, underscore]

/-- Every character of an operator is active. -/
theorem isActive_of_mem_operators {entry : String × Kind}
    (known : entry ∈ compoundOperators ++ singleOperators) :
    ∀ char ∈ entry.1.toList, isActive char = true := by
  intro char member
  have operator : isOperatorChar char = true :=
    List.any_eq_true.mpr ⟨entry, known, List.contains_iff_mem.mpr member⟩
  simp [isActive, isInert, operator]

/-- A change of characters that leaves the active ones as they are and makes no other one active. -/
structure KeepsActive (change : Char → Char) : Prop where
  fixed : ∀ char, isActive char = true → change char = char
  inactive : ∀ char, isActive char = false → isActive (change char) = false

namespace KeepsActive

variable {change : Char → Char}

/-- A class of active characters has the same members after the change. -/
theorem class_eq (keeps : KeepsActive change) {inClass : Char → Bool}
    (active : ∀ char, inClass char = true → isActive char = true) (char : Char) :
    inClass (change char) = inClass char := by
  cases isActive_char : isActive char with
  | true => rw [keeps.fixed char isActive_char]
  | false =>
      have outside : ∀ other, isActive other = false → inClass other = false := fun other idle =>
        Bool.eq_false_iff.mpr fun member => by simp [active other member] at idle
      rw [outside _ isActive_char, outside _ (keeps.inactive _ isActive_char)]

theorem eq_iff (keeps : KeepsActive change) {mark : Char} (active : isActive mark = true)
    (char : Char) : change char = mark ↔ char = mark := by
  have onlyMark : ∀ other, (other == mark) = true → isActive other = true :=
    fun _ same => beq_iff_eq.mp same ▸ active
  rw [← beq_iff_eq, keeps.class_eq onlyMark, beq_iff_eq]

/-- A text of active characters stands where it stood before. -/
theorem map_eq_iff (keeps : KeepsActive change) {mark : List Char}
    (active : ∀ char ∈ mark, isActive char = true) {text : List Char} :
    text.map change = mark ↔ text = mark := by
  induction text generalizing mark with
  | nil => rw [List.map_nil]
  | cons first rest ih =>
      cases mark with
      | nil => simp
      | cons other more =>
          obtain ⟨activeFirst, activeRest⟩ := List.forall_mem_cons.mp active
          rw [List.map_cons, List.cons.injEq, List.cons.injEq, keeps.eq_iff activeFirst,
            ih activeRest]

/-- The run at the front of a text is the same, and it is ended or not as before. -/
theorem endedRun?_map (keeps : KeepsActive change) {inClass : Char → Bool}
    (active : ∀ char, inClass char = true → isActive char = true) (text : List Char) :
    endedRun? inClass (text.map change) = endedRun? inClass text := by
  have sameClass : inClass ∘ change = inClass := funext (keeps.class_eq active)
  have sameRun : (text.takeWhile inClass).map change = text.takeWhile inClass :=
    (List.map_congr_left fun char member =>
      keeps.fixed char (active char (List.mem_takeWhile_imp member))).trans (List.map_id _)
  rw [endedRun?, endedRun?, List.takeWhile_map, List.dropWhile_map, sameClass, sameRun,
    List.isEmpty_map]

end KeepsActive

/-!
### Exchanging characters

What is cut out of a text is exchanged where it is any text at all: inside strings and characters.
-/

/-- The value of a token of the given class after a change of the characters of the text. -/
def Literal.redrawn (change : Char → Char) : Kind → Literal → Literal
  | .string, .text inside => .text (inside.map change)
  | .character, .character value => .character (change value)
  | _, literal => literal

/-- Only strings and characters hold exchanged characters. -/
theorem Literal.redrawn_eq_self {kind : Kind} (change : Char → Char)
    (bare : kind ≠ .string ∧ kind ≠ .character) (literal : Literal) :
    literal.redrawn change kind = literal := by
  unfold redrawn
  split
  · exact absurd rfl bare.1
  · exact absurd rfl bare.2
  · rfl

/-- The token after a change of the characters of the text: of the same class at the same place. -/
def Token.redrawn (change : Char → Char) (token : Token) : Token :=
  { token with literal := token.literal.redrawn change token.kind }

/-- The lexeme after a change of the characters of the text: as many characters wide. -/
def Lexeme.redrawn (change : Char → Char) (lexeme : Lexeme) : Lexeme :=
  { lexeme with token := lexeme.token.redrawn change }

/-- The reading after a change of the characters of the text. -/
def Reading.redrawn (change : Char → Char) : Reading → Reading
  | .token width kind literal => .token width kind (literal.redrawn change kind)
  | other => other

/-!
### Blank characters are dropped like any others

To pass a run of blank characters at once is the same as to drop them one by one, so a scan does
without the recognizer of blanks.
-/

/-- An order of recognizers without the one of blanks. -/
def withoutBlank (order : List Recognizer) : List Recognizer := order.filter (· ≠ .blank)

namespace Recognizer

/-- A blank character is dropped if the recognizer of blanks is not asked. -/
theorem withoutBlank_declines {first : Char} (isBlank : Text.isBlank first = true)
    (order : List Recognizer) (rest : List Char) :
    (withoutBlank order).findSome? (·.read? (first :: rest)) = none := by
  apply List.findSome?_eq_none_iff.mpr
  intro recognizer member
  have noBlank : recognizer ≠ blank := by simpa using (List.mem_filter.mp member).2
  exact read?_eq_none (opens_of_isInert (isInert_of_isBlank isBlank) noBlank) rest

/-- At a blank character the recognizer of blanks decides, if it is asked. -/
theorem findSome?_of_isBlank {first : Char} (isBlank : Text.isBlank first = true)
    (order : List Recognizer) (rest : List Char) :
    order.findSome? (·.read? (first :: rest)) = none ∨
      order.findSome? (·.read? (first :: rest)) =
        some (.blank ((rest.takeWhile Text.isBlank).length + 1)) := by
  induction order with
  | nil => exact .inl rfl
  | cons recognizer order ih =>
      by_cases noBlank : recognizer = blank
      · subst noBlank
        exact .inr (by simp [read?, isBlank])
      · have declined := read?_eq_none (opens_of_isInert (isInert_of_isBlank isBlank) noBlank) rest
        rwa [List.findSome?_cons, declined]

/-- At any other character the recognizer of blanks makes no difference. -/
theorem findSome?_withoutBlank {first : Char} (noBlank : Text.isBlank first = false)
    (order : List Recognizer) (rest : List Char) :
    (withoutBlank order).findSome? (·.read? (first :: rest)) =
      order.findSome? (·.read? (first :: rest)) := by
  induction order with
  | nil => rfl
  | cons recognizer order ih =>
      by_cases isBlank : recognizer = blank
      · subst isBlank
        have unopened : blank.opens first = false := noBlank
        have declined := read?_eq_none unopened rest
        rwa [List.findSome?_cons, declined, withoutBlank, List.filter_cons_of_neg (by simp)]
      · rw [withoutBlank, List.filter_cons_of_pos (by simpa using isBlank), List.findSome?_cons,
          List.findSome?_cons, ← withoutBlank, ih]

end Recognizer

/-- Blank characters that are covered would be dropped as well. -/
theorem scanLine_covers_blanks (order : List Recognizer) (line : Nat) {text : List Char}
    {column covered : Nat} (blanks : ∀ char ∈ text.take covered, Text.isBlank char = true) :
    scanLine (withoutBlank order) line column covered text =
      scanLine (withoutBlank order) line column 0 text := by
  induction text generalizing column covered with
  | nil => rw [scanLine, scanLine]
  | cons first rest ih =>
      cases covered with
      | zero => rfl
      | succ covered =>
          rw [List.take_succ_cons, List.forall_mem_cons] at blanks
          rw [scanLine, scanLine, Recognizer.withoutBlank_declines blanks.1, ih blanks.2]

/-- A scan does without the recognizer of blanks. -/
theorem scanLine_withoutBlank (order : List Recognizer) (line column covered : Nat)
    (text : List Char) :
    scanLine (withoutBlank order) line column covered text =
      scanLine order line column covered text := by
  induction text generalizing column covered with
  | nil => rw [scanLine, scanLine]
  | cons first rest ih =>
      cases covered with
      | succ covered => rw [scanLine, scanLine, ih]
      | zero =>
          cases isBlank : Text.isBlank first with
          | false =>
              simp only [scanLine, Recognizer.findSome?_withoutBlank isBlank, ih]
          | true =>
              rw [scanLine, Recognizer.withoutBlank_declines isBlank, scanLine]
              rcases Recognizer.findSome?_of_isBlank isBlank order rest with none | run
              · rw [none]
                exact ih ..
              -- The run is passed at once here, and one by one without the recognizer of blanks.
              · rw [run]
                dsimp only
                rw [Nat.add_sub_cancel, ← ih]
                apply (scanLine_covers_blanks ..).symm
                intro char member
                rw [← List.prefix_iff_eq_take.mp (List.takeWhile_prefix _)] at member
                exact List.mem_takeWhile_imp member

/-!
### Recognizers see the active characters only

Each recognizer but that of blanks reads the exchanged characters as it reads the ones before.
-/

namespace Recognizer

variable {change : Char → Char}

/-- Operators are read from the same places, and there is nothing to exchange in them. -/
theorem operators_map (keeps : KeepsActive change) {vocabulary : Vocabulary}
    (operators : vocabulary ⊆ compoundOperators ++ singleOperators) (width : Nat)
    (text : List Char) :
    vocabulary.read? width (text.map change) =
      (vocabulary.read? width text).map (Reading.redrawn change) := by
  have same : vocabulary.read? width (text.map change) = vocabulary.read? width text := by
    apply Vocabulary.read?_congr
    intro entry member
    have active := isActive_of_mem_operators (operators member)
    rw [eq_comm, ← List.map_take, keeps.map_eq_iff active, eq_comm]
  rw [same]
  cases read : vocabulary.read? width text with
  | none => rfl
  | some reading =>
      obtain ⟨kind, known, rfl⟩ := Option.map_eq_some_iff.mp read
      have bare : ∀ entry ∈ compoundOperators ++ singleOperators,
          entry.2 ≠ .string ∧ entry.2 ≠ .character := by decide
      have plain := bare _ (operators (Vocabulary.mem_of_kindOf? known))
      rw [Option.map_some, Reading.redrawn, Literal.redrawn_eq_self change plain]

theorem comment_map (keeps : KeepsActive change) (text : List Char) :
    comment.read? (text.map change) = (comment.read? text).map (Reading.redrawn change) := by
  have same : lineComment.toList.isPrefixOf (text.map change) =
      lineComment.toList.isPrefixOf text := by
    have active : ∀ char ∈ lineComment.toList, isActive char = true :=
      List.all_eq_true.mp (by decide)
    rw [Bool.eq_iff_iff, List.isPrefixOf_iff_prefix, List.isPrefixOf_iff_prefix,
      List.prefix_iff_eq_take, List.prefix_iff_eq_take, eq_comm, ← List.map_take,
      keeps.map_eq_iff active, eq_comm]
  simp only [read?, same]
  split <;> rfl

theorem string_map (keeps : KeepsActive change) (text : List Char) :
    string.read? (text.map change) = (string.read? text).map (Reading.redrawn change) := by
  cases text with
  | nil => rfl
  | cons first body =>
      have delimiter : isActive stringDelimiter = true := by decide
      have sameClass : (fun char => decide (char ≠ stringDelimiter)) ∘ change =
          fun char => decide (char ≠ stringDelimiter) := by
        funext char
        simp [keeps.eq_iff delimiter]
      simp only [List.map_cons, read?, keeps.eq_iff delimiter, List.takeWhile_map,
        List.dropWhile_map, sameClass, List.isEmpty_map, List.length_map]
      split
      · split
        · rfl
        · rw [Option.map_some, Reading.redrawn, Literal.redrawn]
          simp [String.ext_iff]
      · rfl

theorem character_map (keeps : KeepsActive change) (text : List Char) :
    character.read? (text.map change) = (character.read? text).map (Reading.redrawn change) := by
  have delimiter : isActive characterDelimiter = true := by decide
  rcases text with - | ⟨first, - | ⟨value, - | ⟨last, rest⟩⟩⟩
  · rfl
  all_goals
    simp only [List.map_cons, List.map_nil, read?, keeps.eq_iff delimiter]
    split
  · rfl
  · rfl
  · rfl
  · rfl
  · split <;> rfl
  · rfl

theorem integer_map (keeps : KeepsActive change) (text : List Char) :
    integer.read? (text.map change) = (integer.read? text).map (Reading.redrawn change) := by
  have active : ∀ char, Char.isDigit char = true → isActive char = true :=
    fun char digit => isActive_of_isWordChar (isWordChar_of_isDigit digit)
  rw [read?, read?, keeps.endedRun?_map active, Option.map_map]
  congr 1
  funext digits
  dsimp only [Function.comp]
  split <;> rfl

theorem word_map (keeps : KeepsActive change) (text : List Char) :
    word.read? (text.map change) = (word.read? text).map (Reading.redrawn change) := by
  cases text with
  | nil => rfl
  | cons first rest =>
      have sameStart : (change first).isAlpha = first.isAlpha :=
        keeps.class_eq (fun char letter => isActive_of_isWordChar (isWordChar_of_isAlpha letter))
          first
      rw [List.map_cons, read?, read?, sameStart, ← List.map_cons,
        keeps.endedRun?_map fun _ => isActive_of_isWordChar]
      split
      · rw [Option.map_map]
        congr 1
        funext letters
        obtain ⟨-, -, noString, noCharacter⟩ := @kind_word (String.ofList letters) _ rfl
        dsimp only [Function.comp, Reading.redrawn]
        rw [Literal.redrawn_eq_self change ⟨noString, noCharacter⟩]
      · rfl

/-- What is read from the exchanged characters is what was read before, with its characters
exchanged. -/
theorem read?_map (keeps : KeepsActive change) {recognizer : Recognizer}
    (noBlank : recognizer ≠ blank) (text : List Char) :
    recognizer.read? (text.map change) = (recognizer.read? text).map (Reading.redrawn change) := by
  cases recognizer with
  | comment => exact comment_map keeps text
  | compound => exact operators_map keeps (List.subset_append_left ..) 2 text
  | single => exact operators_map keeps (List.subset_append_right ..) 1 text
  | blank => exact absurd rfl noBlank
  | string => exact string_map keeps text
  | character => exact character_map keeps text
  | integer => exact integer_map keeps text
  | word => exact word_map keeps text

/-- The first recognizer that does not decline is the same. -/
theorem findSome?_map (keeps : KeepsActive change) {order : List Recognizer}
    (noBlank : ∀ recognizer ∈ order, recognizer ≠ blank) (text : List Char) :
    order.findSome? (·.read? (text.map change)) =
      (order.findSome? (·.read? text)).map (Reading.redrawn change) := by
  induction order with
  | nil => rfl
  | cons recognizer order ih =>
      obtain ⟨noBlankHere, noBlankLater⟩ := List.forall_mem_cons.mp noBlank
      rw [List.findSome?_cons, List.findSome?_cons, read?_map keeps noBlankHere, ih noBlankLater]
      cases recognizer.read? text <;> rfl

end Recognizer

/-!
### Lines and texts
-/

section

variable {change : Char → Char}

/-- The scan of a line with exchanged characters, without the recognizer of blanks. -/
theorem scanLine_withoutBlank_map (keeps : KeepsActive change) (order : List Recognizer)
    (line column covered : Nat) (text : List Char) :
    scanLine (withoutBlank order) line column covered (text.map change) =
      (scanLine (withoutBlank order) line column covered text).map
        (·.map (Lexeme.redrawn change)) := by
  have noBlank : ∀ recognizer ∈ withoutBlank order, recognizer ≠ .blank := fun recognizer member =>
    by simpa using (List.mem_filter.mp member).2
  induction text generalizing column covered with
  | nil => rfl
  | cons first rest ih =>
      cases covered with
      | succ covered => rw [List.map_cons, scanLine, scanLine, ih]
      | zero =>
          have read := Recognizer.findSome?_map keeps noBlank (first :: rest)
          rw [List.map_cons] at read ⊢
          rw [scanLine, scanLine, read]
          cases (withoutBlank order).findSome? (·.read? (first :: rest)) with
          | none => exact ih ..
          | some reading =>
              cases reading with
              | comment => rfl
              | blank width => exact ih ..
              | token width kind literal =>
                  dsimp only [Option.map_some, Reading.redrawn]
                  rw [ih]
                  cases scanLine (withoutBlank order) line (column + 1) (width - 1) rest <;> rfl
              | fault cause => rfl

/-- A line with exchanged characters has the same lexemes, with their characters exchanged. -/
theorem scanLine_map (keeps : KeepsActive change) (order : List Recognizer)
    (line column covered : Nat) (text : List Char) :
    scanLine order line column covered (text.map change) =
      (scanLine order line column covered text).map (·.map (Lexeme.redrawn change)) := by
  rw [← scanLine_withoutBlank, scanLine_withoutBlank_map keeps, scanLine_withoutBlank]

theorem scanLines_map (keeps : KeepsActive change) (order : List Recognizer) (line : Nat)
    (texts : List (List Char)) :
    scanLines order line (texts.map (·.map change)) =
      (scanLines order line texts).map (·.map (Lexeme.redrawn change)) := by
  induction texts generalizing line with
  | nil => rfl
  | cons text later ih =>
      rw [List.map_cons, scanLines, scanLines, scanLine_map keeps, ih]
      cases scanLine order line 1 0 text with
      | error cause => rfl
      | ok here =>
          cases scanLines order (line + 1) later with
          | error cause => rfl
          | ok below => exact congrArg Except.ok List.map_append.symm

theorem Text.linesFrom_map (keeps : KeepsActive change) (started text : List Char) :
    linesFrom (started.map change) (text.map change) =
      (linesFrom started text).map (·.map change) := by
  induction text generalizing started with
  | nil =>
      rw [List.map_nil, linesFrom, linesFrom, List.isEmpty_map]
      split
      · rfl
      · rw [List.map_singleton, List.map_reverse]
  | cons char rest ih =>
      have newline : change char = '\n' ↔ char = '\n' := keeps.eq_iff (by decide) char
      rw [List.map_cons, linesFrom, linesFrom]
      by_cases ends : char = '\n'
      · rw [if_pos ends, if_pos (newline.mpr ends), List.map_cons, List.map_reverse]
        exact congrArg _ (ih [])
      · rw [if_neg ends, if_neg (mt newline.mp ends)]
        exact ih (char :: started)

/-- The lines end at the same places. -/
theorem Text.lines_map (keeps : KeepsActive change) (text : List Char) :
    lines (text.map change) = (lines text).map (·.map change) :=
  linesFrom_map keeps [] text

/-- With any order of recognizers a text with exchanged characters has the same lexemes, with their
characters exchanged. -/
theorem lexemesWith_map (keeps : KeepsActive change) (order : List Recognizer) (source : String) :
    lexemesWith order (source.map change) =
      (lexemesWith order source).map (·.map (Lexeme.redrawn change)) := by
  rw [lexemesWith, lexemesWith, String.toList_map, Text.lines_map keeps, scanLines_map keeps]

/-- Characters that are not active are all alike.  A text in which they are exchanged for others of
their sort is refused where the text before was, with the same error, and otherwise it has the same
tokens at the same places, with the characters exchanged inside strings and characters. -/
theorem lex_map (keeps : KeepsActive change) (source : String) :
    lex (source.map change) = (lex source).map (·.map (Token.redrawn change)) := by
  rw [lex, lex, lexemes, lexemes, lexemesWith_map keeps]
  cases lexemesWith Recognizer.usual source with
  | error cause => rfl
  | ok found =>
      simp only [Except.map, List.map_map]
      rfl

/-- A blank for a wider symbol, a letter with an accent for a blank, and a symbol outside the basic
plane for a narrow one: the tokens are the same at the same places, and a number that is too large
is refused in both texts. -/
theorem lex_map_symbols :
    let change : Char → Char := fun char =>
      if char = ' ' then '§' else if char = 'é' then '\t' else if char = '𝄞' then '#' else char
    let tokens := fun letter text => [⟨.identifier, .text "x", ⟨1, 1⟩⟩,
      ⟨.assign, .text "=", ⟨1, 3⟩⟩, ⟨.character, .character letter, ⟨1, 5⟩⟩,
      ⟨.plus, .text "+", ⟨1, 10⟩⟩, ⟨.string, .text text, ⟨1, 11⟩⟩,
      ⟨.semicolon, .text ";", ⟨1, 16⟩⟩]
    KeepsActive change ∧
      "x = 'é' 𝄞+\"é 7\";".map change = "x§=§'\t'§#+\"\t§7\";" ∧
      lex "x = 'é' 𝄞+\"é 7\";" = .ok (tokens 'é' "é 7") ∧
      lex ("x = 'é' 𝄞+\"é 7\";".map change) = .ok (tokens '\t' "\t§7") ∧
      lex "2147483648é" = .error (.integerOutOfRange "2147483648") ∧
      lex ("2147483648é".map change) = .error (.integerOutOfRange "2147483648") := by
  intro change tokens
  have keeps : KeepsActive change := by
    constructor
    · intro char active
      have others : char ≠ ' ' ∧ char ≠ 'é' ∧ char ≠ '𝄞' := by
        refine ⟨?_, ?_, ?_⟩ <;>
          · rintro rfl
            revert active
            decide
      simp [change, others]
    · intro char inactive
      dsimp only [change]
      split_ifs
      · decide
      · decide
      · decide
      · exact inactive
  have read : lex "x = 'é' 𝄞+\"é 7\";" = .ok (tokens 'é' "é 7") := rfl
  have refused : lex "2147483648é" = .error (.integerOutOfRange "2147483648") := rfl
  have text : "é 7".map change = "\t§7" := by
    rw [← String.toList_inj, String.toList_map]
    decide
  refine ⟨keeps, ?_, read, ?_, refused, ?_⟩
  · rw [← String.toList_inj, String.toList_map]
    decide
  · rw [lex_map keeps, read, ← text]
    rfl
  · rw [lex_map keeps, refused]
    rfl

end

end CLike
