/-
Module: CLike.Proofs.Readings
Layer: Proofs
Purpose: What a reading says about the text in front of which it is made, and what it means that no
  recognizer reads anything there.
Main exports: isInert, Idle, Token.WrittenAs, Reading.Fits, Recognizer.fits_of_read?,
  Recognizer.idle_of_none
-/
import CLike.Proofs.Spelling

namespace CLike

/-!
### Inert characters

Outside strings, characters and comments these characters say nothing.
-/

/-- Whether a character is part of an operator or a mark. -/
def isOperatorChar (char : Char) : Bool :=
  (compoundOperators ++ singleOperators).any (·.1.toList.contains char)

/-- Whether a character is neither part of an operator, nor a quote, nor a letter, nor a digit. -/
def isInert (char : Char) : Bool :=
  !isOperatorChar char && char != stringDelimiter && char != characterDelimiter && !char.isAlphanum

/-- A character that nothing is read from: it is inert, or it belongs to a run of letters, digits
and underscores that goes on to the end of the line.  A run of digits is one only if there is
nothing but digits in it. -/
inductive Idle (first : Char) (rest : List Char) : Prop where
  | inert (isInert : isInert first = true)
  | word (letter : first.isAlpha = true) (unended : ∀ char ∈ first :: rest, isWordChar char = true)
  | number (unended : ∀ char ∈ first :: rest, char.isDigit = true)

/-- Whatever nothing is read from is inert or goes on as a word to the end of the line. -/
theorem Idle.inert_or_unended {first : Char} {rest : List Char} (idle : Idle first rest) :
    isInert first = true ∨ ∀ char ∈ first :: rest, isWordChar char = true := by
  cases idle with
  | inert isInert => exact .inl isInert
  | word _ unended => exact .inr unended
  | number unended => exact .inr fun char member => isWordChar_of_isDigit (unended char member)

/-- What holds of all characters in the tables of operators holds of every operator character. -/
theorem of_isOperatorChar {property : Char → Bool} {char : Char}
    (each : (compoundOperators ++ singleOperators).all (·.1.toList.all property) = true)
    (isOperator : isOperatorChar char = true) : property char = true := by
  obtain ⟨entry, known, member⟩ := List.any_eq_true.mp isOperator
  exact List.all_eq_true.mp (List.all_eq_true.mp each entry known) char
    (List.contains_iff_mem.mp member)

/-- A blank character is inert. -/
theorem isInert_of_isBlank {char : Char} (blank : Text.isBlank char = true) :
    isInert char = true := by
  have noOperator : isOperatorChar char = false := by
    apply Bool.eq_false_iff.mpr
    intro isOperator
    have visible := @of_isOperatorChar (fun char => !Text.isBlank char) _ (by decide) isOperator
    simp [blank] at visible
  have noString : char ≠ stringDelimiter := by
    rintro rfl
    revert blank
    decide
  have noCharacter : char ≠ characterDelimiter := by
    rintro rfl
    revert blank
    decide
  have noWord : char.isAlphanum = false := by
    have noWordChar := isWordChar_of_isBlank blank
    rw [isWordChar, Bool.or_eq_false_iff] at noWordChar
    exact noWordChar.1
  simp [isInert, noOperator, noString, noCharacter, noWord]

/-!
### Tokens in their places

A token is not always written as it is spelled: an integer may have zeros in front.  Where it ends
depends on its class.  A run ends where a character of another class follows, and one does follow,
while other tokens end by themselves.
-/

namespace Token

/-- The token is written as `span` where `rest` follows in the line. -/
inductive WrittenAs : (token : Token) → (span rest : List Char) → Prop where
  /-- Operators, strings and characters. -/
  | closed {token : Token} {rest : List Char} (lexable : token.Lexable)
      (noRun : token.kind.isRun = false) : WrittenAs token token.spelling.toList rest
  /-- Keywords and names. -/
  | word {token : Token} {rest : List Char} (lexable : token.Lexable)
      (isRun : token.kind.isRun = true) (noNumber : token.kind ≠ .integer)
      (ended : Ended isWordChar rest) : WrittenAs token token.spelling.toList rest
  | integer {value : Int32} {digits rest : List Char} (nonnegative : 0 ≤ value)
      (filled : digits ≠ []) (areDigits : ∀ digit ∈ digits, digit.isDigit = true)
      (valued : (Nat.ofDigitChars 10 digits 0 : Int) = value.toInt)
      (ended : Ended Char.isDigit rest) (position : Position) :
      WrittenAs ⟨.integer, .integer value, position⟩ digits rest

/-- A token that is written somewhere can be written down. -/
theorem WrittenAs.lexable {token : Token} {span rest : List Char}
    (written : token.WrittenAs span rest) : token.Lexable := by
  cases written with
  | closed lexable noRun => exact lexable
  | word lexable isRun noNumber ended => exact lexable
  | integer nonnegative filled areDigits valued ended position =>
      exact .integer nonnegative position

/-- No token is written as nothing. -/
theorem WrittenAs.filled {token : Token} {span rest : List Char}
    (written : token.WrittenAs span rest) : span ≠ [] := by
  cases written with
  | closed lexable noRun => exact lexable.spelling_sameLine.1
  | word lexable isRun noNumber ended => exact lexable.spelling_sameLine.1
  | integer nonnegative filled areDigits valued ended position => exact filled

end Token

/-!
### Runs
-/

/-- Behind the characters of a class, a text ends or goes on with another character. -/
theorem eq_takeWhile_append_of_ended {inClass : Char → Bool} {text : List Char}
    (left : text.dropWhile inClass ≠ []) :
    ∃ next more, text = text.takeWhile inClass ++ next :: more ∧ inClass next = false := by
  obtain ⟨next, more, shape⟩ := List.exists_cons_of_ne_nil left
  have stopped := List.head_dropWhile_not inClass left
  simp only [shape, List.head_cons] at stopped
  refine ⟨next, more, ?_, stopped⟩
  rw [← shape, List.takeWhile_append_dropWhile]

/-- A run that is read goes up to the first character outside the class, and there is one. -/
theorem endedRun?_eq_some {inClass : Char → Bool} {text run : List Char}
    (read : endedRun? inClass text = some run) :
    run ≠ [] ∧ (∀ char ∈ run, inClass char = true) ∧
      ∃ rest, text = run ++ rest ∧ Ended inClass rest := by
  unfold endedRun? at read
  dsimp only at read
  split at read
  · cases read
  · next going =>
      obtain rfl := Option.some.inj read
      rw [Bool.or_eq_true, not_or, List.isEmpty_iff, List.isEmpty_iff] at going
      rcases going with ⟨filled, left⟩
      obtain ⟨next, more, shape, stopped⟩ := eq_takeWhile_append_of_ended left
      exact ⟨filled, fun _ => List.mem_takeWhile_imp, next :: more, shape, next, more, rfl, stopped⟩

/-- Where a run is declined although it starts, it goes on to the end of the line. -/
theorem endedRun?_eq_none {inClass : Char → Bool} {first : Char} {rest : List Char}
    (starts : inClass first = true) (declined : endedRun? inClass (first :: rest) = none) :
    ∀ char ∈ first :: rest, inClass char = true := by
  unfold endedRun? at declined
  dsimp only at declined
  split at declined
  · next stopped =>
      rw [List.takeWhile_cons_of_pos starts, List.isEmpty_cons, Bool.false_or,
        List.isEmpty_iff] at stopped
      exact List.dropWhile_eq_nil_iff.mp stopped
  · cases declined

/-!
### What a reading says

Each recognizer is described once, by what each of its readings says about the text.
-/

/-- What a reading says about the text in front of which it is made. -/
def Reading.Fits (text : List Char) : Reading → Prop
  | .comment => ∃ rest, text = lineComment.toList ++ rest
  | .blank width => width ≠ 0 ∧ width = (text.takeWhile Text.isBlank).length
  | .token width kind literal => ∃ span rest, text = span ++ rest ∧ span.length = width ∧
    ∀ position, (⟨kind, literal, position⟩ : Token).WrittenAs span rest
  | .fault .unclosedString => ∃ body, text = stringDelimiter :: body ∧ stringDelimiter ∉ body
  | .fault .unclosedCharacter => ∃ body, text = characterDelimiter :: body ∧
    body[1]? ≠ some characterDelimiter
  | .fault (.integerOutOfRange digits) => ∃ rest, text = digits.toList ++ rest ∧
    (∀ digit ∈ digits.toList, digit.isDigit = true) ∧ Ended Char.isDigit rest ∧
    largestInteger < Nat.ofDigitChars 10 digits.toList 0

/-- What an operator table reads is one of its words, which are all of one size. -/
theorem Vocabulary.fits_of_read? {vocabulary : Vocabulary} {size : Nat}
    (sizes : ∀ entry ∈ vocabulary, entry.1.toList.length = size)
    (bare : ∀ entry ∈ vocabulary, entry.2 ≠ .string ∧ entry.2 ≠ .character)
    (closed : ∀ entry ∈ vocabulary, entry.2.isRun = false)
    (lexable : ∀ entry ∈ vocabulary, ∀ position,
      (⟨entry.2, .text entry.1, position⟩ : Token).Lexable)
    {text : List Char} {reading : Reading} (read : vocabulary.read? size text = some reading) :
    reading.Fits text := by
  rcases Option.map_eq_some_iff.mp read with ⟨kind, found, rfl⟩
  have known := mem_of_kindOf? found
  have start := @String.toList_ofList (text.take size)
  have whole := sizes _ known
  refine ⟨text.take size, text.drop size, (List.take_append_drop ..).symm, ?_, fun position => ?_⟩
  · rwa [start] at whole
  · have written : (⟨kind, .text (.ofList (text.take size)), position⟩ : Token).WrittenAs _
        (text.drop size) := .closed (lexable _ known position) (closed _ known)
    rwa [Token.spelling_of_entry bare known position, start] at written

namespace Recognizer

variable {text : List Char} {reading : Reading}

theorem comment_fits (read : comment.read? text = some reading) : reading.Fits text := by
  simp only [read?] at read
  split at read
  · next starts =>
      cases read
      obtain ⟨rest, shape⟩ := List.isPrefixOf_iff_prefix.mp starts
      exact ⟨rest, shape.symm⟩
  · cases read

theorem blank_fits (read : blank.read? text = some reading) : reading.Fits text := by
  simp only [read?] at read
  split at read
  · cases read
  · next filled =>
      cases read
      exact ⟨filled, rfl⟩

theorem compound_fits (read : compound.read? text = some reading) : reading.Fits text :=
  Vocabulary.fits_of_read? (by decide) (by decide) (by decide) (fun _ => .compound) read

theorem single_fits (read : single.read? text = some reading) : reading.Fits text :=
  Vocabulary.fits_of_read? (by decide) (by decide) (by decide) (fun _ => .single) read

theorem string_fits (sameLine : '\n' ∉ text) (read : string.read? text = some reading) :
    reading.Fits text := by
  cases text with
  | nil => cases read
  | cons first body =>
      rw [read?] at read
      split at read
      · next opens =>
          subst opens
          split at read
          · next unclosed =>
              cases read
              rw [List.isEmpty_iff, List.dropWhile_eq_nil_iff] at unclosed
              exact ⟨body, rfl, fun member => by simpa using unclosed _ member⟩
          · next closes =>
              cases read
              rw [List.isEmpty_iff] at closes
              obtain ⟨last, rest, shape, isLast⟩ := eq_takeWhile_append_of_ended closes
              have unquoted : stringDelimiter ∉ body.takeWhile (· ≠ stringDelimiter) :=
                fun member => by simpa using List.mem_takeWhile_imp member
              generalize body.takeWhile (· ≠ stringDelimiter) = inside at shape unquoted ⊢
              obtain rfl : last = stringDelimiter := by simpa using isLast
              subst shape
              refine ⟨stringDelimiter :: (inside ++ [stringDelimiter]), rest, by simp, by simp, ?_⟩
              intro position
              have clean : '\n' ∉ inside := fun member => sameLine (by simp [member])
              have lexable : (⟨.string, .text (String.ofList inside), position⟩ : Token).Lexable :=
                .string (by rwa [String.toList_ofList]) (by rwa [String.toList_ofList]) position
              have written := @Token.WrittenAs.closed _ rest lexable rfl
              rwa [Token.spelling_string, String.toList_ofList] at written
      · cases read

theorem character_fits (sameLine : '\n' ∉ text) (read : character.read? text = some reading) :
    reading.Fits text := by
  cases text with
  | nil => cases read
  | cons first body =>
      simp only [read?] at read
      split at read
      · next opens =>
          subst opens
          split at read
          · next value last rest =>
              split at read
              · next closes =>
                  cases read
                  subst closes
                  refine ⟨[characterDelimiter, value, characterDelimiter], rest, rfl, rfl, ?_⟩
                  intro position
                  have other : value ≠ '\n' := by
                    rintro rfl
                    exact sameLine (by simp)
                  have written : (⟨.character, .character value, position⟩ : Token).WrittenAs _
                      rest := .closed (.character other position) rfl
                  rwa [Token.spelling_character] at written
              · next unclosed =>
                  cases read
                  exact ⟨_, rfl, by simpa using unclosed⟩
          · next short =>
              cases read
              refine ⟨body, rfl, fun third => ?_⟩
              rcases body with - | ⟨value, - | ⟨last, rest⟩⟩
              · cases third
              · cases third
              · exact short value last rest rfl
      · cases read

theorem integer_fits (read : integer.read? text = some reading) : reading.Fits text := by
  rcases Option.map_eq_some_iff.mp read with ⟨digits, run, same⟩
  obtain ⟨filled, areDigits, rest, rfl, ended⟩ := endedRun?_eq_some run
  dsimp only at same
  split at same
  · next inRange =>
      subst same
      have valued : (Int32.ofNat (Nat.ofDigitChars 10 digits 0)).toInt =
          (Nat.ofDigitChars 10 digits 0 : Int) :=
        Int32.toInt_ofNat_of_lt (Nat.lt_succ_of_le inRange)
      refine ⟨digits, rest, rfl, rfl, fun position => ?_⟩
      refine .integer ?_ filled areDigits valued.symm ended position
      rw [Int32.le_iff_toInt_le, valued]
      exact Int.natCast_nonneg _
  · next tooLarge =>
      subst same
      rw [← @String.toList_ofList digits] at areDigits tooLarge
      refine ⟨rest, ?_, areDigits, ended, Nat.lt_of_not_le tooLarge⟩
      rw [String.toList_ofList]

/-- A word is a keyword or a name. -/
theorem lexable_word {name : String} (named : isName name = true) (position : Position) :
    (⟨(keywords.kindOf? name).getD .identifier, .text name, position⟩ : Token).Lexable := by
  cases known : keywords.kindOf? name with
  | none => exact .identifier named known position
  | some kind =>
      exact @Token.Lexable.keyword (name, kind) (Vocabulary.mem_of_kindOf? known) position

/-- The class of a word is that of a run which is written as it is. -/
theorem kind_word {name : String} {kind : Kind}
    (looked : (keywords.kindOf? name).getD .identifier = kind) :
    kind.isRun = true ∧ kind ≠ .integer ∧ kind ≠ .string ∧ kind ≠ .character := by
  cases known : keywords.kindOf? name with
  | none =>
      rw [known] at looked
      subst looked
      decide
  | some found =>
      have each : ∀ entry ∈ keywords, entry.2.isRun = true ∧ entry.2 ≠ .integer ∧
          entry.2 ≠ .string ∧ entry.2 ≠ .character := by decide
      rw [known] at looked
      subst looked
      exact each _ (Vocabulary.mem_of_kindOf? known)

theorem word_fits (read : word.read? text = some reading) : reading.Fits text := by
  cases text with
  | nil => cases read
  | cons first rest =>
      rw [read?] at read
      split at read
      · next letter =>
          rcases Option.map_eq_some_iff.mp read with ⟨letters, run, same⟩
          obtain ⟨filled, wordChars, rest, shape, ended⟩ := endedRun?_eq_some run
          obtain ⟨other, more, rfl⟩ := List.exists_cons_of_ne_nil filled
          obtain rfl : first = other := (List.cons.inj shape).1
          have named : isName (String.ofList (first :: more)) = true :=
            isName_iff.mpr ⟨first, more, String.toList_ofList, letter,
              (List.forall_mem_cons.mp wordChars).2⟩
          have lexable := lexable_word named
          dsimp only at same
          generalize looked : (keywords.kindOf? (String.ofList (first :: more))).getD .identifier =
            kind at same lexable
          obtain ⟨isRun, noInteger, noString, noCharacter⟩ := kind_word looked
          subst same
          refine ⟨first :: more, rest, shape, rfl, fun position => ?_⟩
          have written := Token.WrittenAs.word (lexable position) isRun noInteger ended
          rwa [Token.spelling_of_bare noString noCharacter, Token.text, Literal.display,
            String.toList_ofList] at written
      · cases read

/-- Whatever is read from a line is there, whichever recognizer reads it. -/
theorem fits_of_read? {recognizer : Recognizer} (sameLine : '\n' ∉ text)
    (read : recognizer.read? text = some reading) : reading.Fits text := by
  cases recognizer with
  | comment => exact comment_fits read
  | compound => exact compound_fits read
  | single => exact single_fits read
  | blank => exact blank_fits read
  | string => exact string_fits sameLine read
  | character => exact character_fits sameLine read
  | integer => exact integer_fits read
  | word => exact word_fits read

/-!
### Where nothing is read
-/

/-- An operator character is read, by itself if not as part of something longer. -/
theorem single_ne_none {first : Char} (isOperator : isOperatorChar first = true)
    (rest : List Char) : single.read? (first :: rest) ≠ none := by
  have known : (singleOperators.kindOf? (String.ofList [first])).isSome = true :=
    @of_isOperatorChar (fun char => (singleOperators.kindOf? (String.ofList [char])).isSome) _
      (by decide) isOperator
  rw [Option.isSome_iff_exists] at known
  rcases known with ⟨kind, found⟩
  rw [single_reads found]
  exact Option.some_ne_none _

/-- At an inert character nothing starts but a run of blanks. -/
theorem opens_of_isInert {first : Char} (inert : isInert first = true) {recognizer : Recognizer}
    (noBlank : recognizer ≠ blank) : recognizer.opens first = false := by
  simp only [isInert, Bool.and_eq_true, Bool.not_eq_true', bne_iff_ne] at inert
  obtain ⟨⟨⟨noOperator, noString⟩, noCharacter⟩, noWord⟩ := inert
  have apart : ∀ vocabulary ⊆ compoundOperators ++ singleOperators,
      vocabulary.opens first = false := by
    intro vocabulary within
    rw [Vocabulary.opens, List.any_eq_false]
    intro entry member starts
    have here : first ∈ entry.1.toList := List.mem_of_head? (beq_iff_eq.mp starts)
    rw [isOperatorChar, List.any_eq_false] at noOperator
    exact noOperator entry (within member) (List.contains_iff_mem.mpr here)
  rw [Char.isAlphanum, Bool.or_eq_false_iff] at noWord
  cases recognizer with
  | comment =>
      apply beq_false_of_ne
      intro starts
      obtain rfl : '/' = first := Option.some.inj starts
      revert noOperator
      decide
  | compound => exact apart _ (List.subset_append_left ..)
  | single => exact apart _ (List.subset_append_right ..)
  | blank => exact absurd rfl noBlank
  | string => exact beq_false_of_ne noString
  | character => exact beq_false_of_ne noCharacter
  | integer => exact noWord.2
  | word => exact noWord.1

/-- A character from which nothing is read is idle. -/
theorem idle_of_none {first : Char} {rest : List Char}
    (declined : usual.findSome? (·.read? (first :: rest)) = none) : Idle first rest := by
  have each := List.findSome?_eq_none_iff.mp declined
  by_cases letter : first.isAlpha = true
  · apply Idle.word letter
    have unread := each .word (by decide)
    simp only [read?, if_pos letter, Option.map_eq_none_iff] at unread
    exact endedRun?_eq_none (isWordChar_of_isAlpha letter) unread
  by_cases digit : first.isDigit = true
  · apply Idle.number
    exact endedRun?_eq_none digit (Option.map_eq_none_iff.mp (each .integer (by decide)))
  apply Idle.inert
  have noOperator : isOperatorChar first = false :=
    Bool.eq_false_iff.mpr fun isOperator =>
      single_ne_none isOperator rest (each .single (by decide))
  have noString : first ≠ stringDelimiter := by
    rintro rfl
    have unread := each .string (by decide)
    simp only [read?, if_true] at unread
    split at unread <;> cases unread
  have noCharacter : first ≠ characterDelimiter := by
    rintro rfl
    have unread := each .character (by decide)
    simp only [read?, if_true] at unread
    split at unread
    · split at unread <;> cases unread
    · cases unread
  simp [isInert, noOperator, noString, noCharacter, Char.isAlphanum, letter, digit]

end Recognizer

end CLike
