/-
Module: CLike.Proofs.Recognition
Layer: Proofs
Purpose: Which recognizer reads the text in front of it is decided by the first character, and for
  comments and operators by the second one as well.
Main exports: Recognizer.opens, Recognizer.read?_eq_none, Recognizer.usual_reads,
  Recognizer.usual_word, Recognizer.usual_integer, Recognizer.usual_blank, Recognizer.usual_single
-/
import CLike.Lexeme.Reading

namespace CLike

/-!
### Blank characters

A blank character belongs to no other class.
-/

theorem isAlpha_iff_toNat {char : Char} :
    char.isAlpha = true ↔
      (65 ≤ char.toNat ∧ char.toNat ≤ 90) ∨ (97 ≤ char.toNat ∧ char.toNat ≤ 122) := by
  change (decide (char.val ≥ 'A'.val ∧ char.val ≤ 'Z'.val) ||
    (decide (char.val ≥ 'a'.val) && decide (char.val ≤ 'z'.val))) = true ↔ _
  simp only [Bool.or_eq_true, Bool.and_eq_true, decide_eq_true_eq, ge_iff_le,
    UInt32.le_iff_toNat_le, Char.toNat_val]
  exact .rfl

theorem isDigit_iff_toNat {char : Char} :
    char.isDigit = true ↔ 48 ≤ char.toNat ∧ char.toNat ≤ 57 :=
  Char.isDigit_iff_toNat

/-- A blank character does not go on with a word, and so it is neither a letter nor a digit. -/
theorem isWordChar_of_isBlank {char : Char} (blank : Text.isBlank char = true) :
    isWordChar char = false := by
  apply Bool.eq_false_iff.mpr
  intro wordChar
  simp only [Text.isBlank, Text.blankRanges, List.any_cons, List.any_nil, Bool.or_false,
    Bool.or_eq_true, Bool.and_eq_true, decide_eq_true_eq] at blank
  simp only [isWordChar, Char.isAlphanum, Bool.or_eq_true, isAlpha_iff_toNat, isDigit_iff_toNat,
    beq_iff_eq] at wordChar
  rcases wordChar with (letter | digit) | underscore
  · omega
  · omega
  · rw [underscore] at blank
    revert blank
    decide

theorem isWordChar_of_isDigit {char : Char} (digit : char.isDigit = true) :
    isWordChar char = true := by
  simp [isWordChar, Char.isAlphanum, digit]

theorem isWordChar_of_isAlpha {char : Char} (letter : char.isAlpha = true) :
    isWordChar char = true := by
  simp [isWordChar, Char.isAlphanum, letter]

/-- No letter is a digit. -/
theorem isDigit_of_isAlpha {char : Char} (letter : char.isAlpha = true) : char.isDigit = false := by
  apply Bool.eq_false_iff.mpr
  intro digit
  rw [isAlpha_iff_toNat] at letter
  rw [isDigit_iff_toNat] at digit
  omega

/-!
### Runs

The characters of one class at the front of a text go up to the first character outside the class.
-/

/-- The text goes on with a character outside the class. -/
def Ended (inClass : Char → Bool) (rest : List Char) : Prop :=
  ∃ next more, rest = next :: more ∧ inClass next = false

/-- What ends a run of a class ends a run of each smaller class. -/
theorem Ended.mono {inner outer : Char → Bool} {rest : List Char} (ended : Ended outer rest)
    (within : ∀ char, inner char = true → outer char = true) : Ended inner rest := by
  obtain ⟨next, more, rfl, foreign⟩ := ended
  refine ⟨next, more, rfl, Bool.eq_false_iff.mpr fun member => ?_⟩
  rw [within next member] at foreign
  cases foreign

/-- Where a mark does not occur, every character is another one. -/
theorem forall_ne_of_not_mem {mark : Char} {text : List Char} (clean : mark ∉ text) :
    ∀ char ∈ text, decide (char ≠ mark) = true :=
  fun _ member => decide_eq_true fun same => clean (same ▸ member)

theorem takeWhile_ended {inClass : Char → Bool} {run : List Char}
    (member : ∀ char ∈ run, inClass char = true) {next : Char} (foreign : inClass next = false)
    (rest : List Char) : (run ++ next :: rest).takeWhile inClass = run := by
  rw [List.takeWhile_append_of_pos member, List.takeWhile_cons_of_neg (by simp [foreign]),
    List.append_nil]

theorem dropWhile_ended {inClass : Char → Bool} {run : List Char}
    (member : ∀ char ∈ run, inClass char = true) {next : Char} (foreign : inClass next = false)
    (rest : List Char) : (run ++ next :: rest).dropWhile inClass = next :: rest := by
  rw [List.dropWhile_append_of_pos member, List.dropWhile_cons_of_neg (by simp [foreign])]

/-!
### Vocabularies
-/

namespace Vocabulary

/-- Whether one of the words starts with this character. -/
def opens (vocabulary : Vocabulary) (first : Char) : Bool :=
  vocabulary.any fun entry => entry.1.toList.head? == some first

/-- A word that is found is there. -/
theorem mem_of_kindOf? {vocabulary : Vocabulary} {word : String} {kind : Kind}
    (known : vocabulary.kindOf? word = some kind) : (word, kind) ∈ vocabulary := by
  rcases List.lookup_eq_some_iff.mp known with ⟨before, after, rfl, -⟩
  simp

/-- A vocabulary declines a text in which none of its words can be. -/
theorem read?_eq_none {vocabulary : Vocabulary} {width : Nat} {text : List Char}
    (foreign : ∀ entry ∈ vocabulary, entry.1.toList ≠ text.take width) :
    vocabulary.read? width text = none := by
  cases known : vocabulary.kindOf? (String.ofList (text.take width)) with
  | none => simp [read?, known]
  | some kind =>
      refine absurd ?_ (foreign _ (mem_of_kindOf? known))
      exact String.toList_ofList

/-- A vocabulary reads the same from texts whose fronts are the same of its words. -/
theorem read?_congr {vocabulary : Vocabulary} {width : Nat} {one two : List Char}
    (same : ∀ entry ∈ vocabulary,
      (entry.1.toList = one.take width ↔ entry.1.toList = two.take width)) :
    vocabulary.read? width one = vocabulary.read? width two := by
  by_cases known : ∃ entry ∈ vocabulary, entry.1.toList = one.take width
  · obtain ⟨entry, member, fronts⟩ := known
    rw [read?, read?, ← fronts, ← (same entry member).mp fronts]
  · have foreign : ∀ entry ∈ vocabulary, entry.1.toList ≠ one.take width :=
      fun entry member fronts => known ⟨entry, member, fronts⟩
    rw [read?_eq_none foreign, read?_eq_none]
    exact fun entry member fronts => foreign entry member ((same entry member).mpr fronts)

/-- A word at the front of a text is read if it is as long as the words to be read. -/
theorem read?_append {vocabulary : Vocabulary} {word : String} {kind : Kind} {width : Nat}
    (known : vocabulary.kindOf? word = some kind) (fits : word.toList.length = width)
    (rest : List Char) :
    vocabulary.read? width (word.toList ++ rest) = some (.token width kind (.text word)) := by
  have lexeme : String.ofList ((word.toList ++ rest).take width) = word := by
    rw [← fits, List.take_left, String.ofList_toList]
  simp only [read?, lexeme, known, Option.map_some]

end Vocabulary

/-!
### Declining

Each recognizer looks at the first character and declines unless it is one of its own.
-/

namespace Recognizer

/-- The characters that a reading can start with. -/
def opens : Recognizer → Char → Bool
  | comment, first => lineComment.toList.head? == some first
  | compound, first => compoundOperators.opens first
  | single, first => singleOperators.opens first
  | blank, first => Text.isBlank first
  | string, first => first == stringDelimiter
  | character, first => first == characterDelimiter
  | integer, first => first.isDigit
  | word, first => first.isAlpha

theorem endedRun?_of_foreign {inClass : Char → Bool} {first : Char}
    (foreign : inClass first = false) (rest : List Char) :
    endedRun? inClass (first :: rest) = none := by
  simp [endedRun?, foreign]

private theorem vocabulary_declines {vocabulary : Vocabulary} {first : Char}
    (foreign : vocabulary.opens first = false) (width : Nat) (rest : List Char) :
    vocabulary.read? (width + 1) (first :: rest) = none := by
  apply Vocabulary.read?_eq_none
  intro entry member same
  rw [Vocabulary.opens, List.any_eq_false] at foreign
  have starts := foreign entry member
  rw [same] at starts
  simp at starts

/-- A recognizer declines a text that starts with a character of another. -/
theorem read?_eq_none {recognizer : Recognizer} {first : Char}
    (foreign : recognizer.opens first = false) (rest : List Char) :
    recognizer.read? (first :: rest) = none := by
  cases recognizer with
  | comment =>
      have other : '/' ≠ first := by simpa [opens, lineComment] using foreign
      simp [read?, lineComment, other]
  | compound => exact vocabulary_declines foreign 1 rest
  | single => exact vocabulary_declines foreign 0 rest
  | blank =>
      rw [opens] at foreign
      simp [read?, foreign]
  | string =>
      have other : first ≠ stringDelimiter := by simpa [opens] using foreign
      simp [read?, other]
  | character =>
      have other : first ≠ characterDelimiter := by simpa [opens] using foreign
      simp [read?, other]
  | integer =>
      rw [opens] at foreign
      rw [read?, endedRun?_of_foreign foreign, Option.map_none]
  | word =>
      rw [opens] at foreign
      simp [read?, foreign]

/-- What is read is decided by the first recognizer that does not decline. -/
theorem usual_reads (before : List Recognizer) (recognizer : Recognizer) {after : List Recognizer}
    {text : List Char} {reading : Reading} (order : usual = before ++ recognizer :: after)
    (declined : ∀ earlier ∈ before, earlier.read? text = none)
    (read : recognizer.read? text = some reading) :
    usual.findSome? (·.read? text) = some reading := by
  have none_before : before.findSome? (·.read? text) = none :=
    List.findSome?_eq_none_iff.mpr declined
  rw [order, List.findSome?_append, none_before, Option.none_or, List.findSome?_cons, read]

/-!
### The classes of first characters

No two recognizers start with the same characters, but for those of comments and operators.
-/

/-- The marks, comments among them, do not start with a character of some class if none of the
fixed ones is in the class. -/
theorem marks_opens {inClass : Char → Bool} {first : Char}
    (apart : (lineComment :: (compoundOperators ++ singleOperators).map (·.1)).all
      (·.toList.head?.all (!inClass ·)) = true) (member : inClass first = true) :
    ∀ recognizer ∈ [comment, compound, single], recognizer.opens first = false := by
  have differs : ∀ mark ∈ lineComment :: (compoundOperators ++ singleOperators).map (·.1),
      (mark.toList.head? == some first) = false := by
    intro mark isMark
    apply beq_false_of_ne
    intro starts
    have outside := List.all_eq_true.mp apart mark isMark
    rw [starts] at outside
    simp [member] at outside
  simp only [List.mem_cons, List.map_append, List.mem_append, List.mem_map] at differs
  simp only [List.forall_mem_cons, opens, Vocabulary.opens, List.any_eq_false, Bool.not_eq_true]
  refine ⟨differs _ (.inl rfl), ?_, ?_, List.forall_mem_nil _⟩
  · intro entry known
    exact differs _ (.inr (.inl ⟨entry, known, rfl⟩))
  · intro entry known
    exact differs _ (.inr (.inr ⟨entry, known, rfl⟩))

theorem opens_of_isBlank {first : Char} (isBlank : Text.isBlank first = true) :
    ∀ recognizer ∈ [comment, compound, single], recognizer.opens first = false :=
  marks_opens (by decide) isBlank

/-- Before numbers and words nothing else starts like a word. -/
theorem opens_of_isWordChar {first : Char} (wordChar : isWordChar first = true) :
    ∀ recognizer ∈ [comment, compound, single, blank, string, character],
      recognizer.opens first = false := by
  have marks := marks_opens (by decide) wordChar
  have others : ∀ recognizer ∈ [blank, string, character], recognizer.opens first = false := by
    simp only [List.forall_mem_cons, opens]
    refine ⟨?_, ?_, ?_, List.forall_mem_nil _⟩
    · cases isBlank : Text.isBlank first with
      | false => rfl
      | true =>
          rw [isWordChar_of_isBlank isBlank] at wordChar
          cases wordChar
    · apply beq_false_of_ne
      rintro rfl
      revert wordChar
      decide
    · apply beq_false_of_ne
      rintro rfl
      revert wordChar
      decide
  exact List.forall_mem_append.mpr ⟨marks, others⟩

theorem declined_of_opens {recognizers : List Recognizer} {first : Char}
    (foreign : ∀ recognizer ∈ recognizers, recognizer.opens first = false) (rest : List Char) :
    ∀ recognizer ∈ recognizers, recognizer.read? (first :: rest) = none :=
  fun recognizer member => read?_eq_none (foreign recognizer member) rest

/-!
### What is read

One lemma for each recognizer says what it reads, and that those before it decline.
-/

/-- The text ends here, or a blank character follows. -/
def Delimited (rest : List Char) : Prop := ∀ next ∈ rest.head?, Text.isBlank next = true

theorem usual_comment (rest : List Char) :
    usual.findSome? (·.read? (lineComment.toList ++ rest)) = some .comment := by
  apply usual_reads [] comment rfl (List.forall_mem_nil _)
  simp [read?]

theorem usual_blank {first : Char} (isBlank : Text.isBlank first = true) (rest : List Char) :
    usual.findSome? (·.read? (first :: rest)) =
      some (.blank ((rest.takeWhile Text.isBlank).length + 1)) := by
  have declined := declined_of_opens (opens_of_isBlank isBlank) rest
  apply usual_reads _ blank rfl declined
  simp [read?, isBlank]

/-- An operator of two characters is read whatever follows. -/
theorem usual_compound {entry : String × Kind} (known : entry ∈ compoundOperators)
    (rest : List Char) :
    usual.findSome? (·.read? (entry.1.toList ++ rest)) =
      some (.token entry.1.toList.length entry.2 (.text entry.1)) := by
  have found : compoundOperators.kindOf? entry.1 = some entry.2 := by
    revert entry
    decide
  have fits : entry.1.toList.length = 2 := by
    revert entry
    decide
  have noComment : comment.opens (entry.1.toList.head?.getD ' ') = false := by
    revert entry
    decide
  apply usual_reads [comment] compound rfl
  · cases shape : entry.1.toList with
    | nil =>
        rw [shape] at fits
        cases fits
    | cons first more =>
        rw [shape] at noComment
        exact List.forall_mem_singleton.mpr (read?_eq_none noComment _)
  · rw [fits]
    exact Vocabulary.read?_append found fits rest

/-- Both comments and long operators need a second character, which is not blank. -/
theorem declined_of_delimited {rest : List Char} (delimited : Delimited rest) (first : Char) :
    ∀ recognizer ∈ [comment, compound], recognizer.read? (first :: rest) = none := by
  have second : ∀ mark ∈ lineComment :: compoundOperators.map (·.1),
      ∃ char, mark.toList[1]? = some char ∧ Text.isBlank char = false := by
    have apart : (lineComment :: compoundOperators.map (·.1)).all
        (·.toList[1]?.any (!Text.isBlank ·)) = true := by decide
    intro mark isMark
    obtain ⟨char, found, notBlank⟩ :=
      (Option.any_eq_true ..).mp (List.all_eq_true.mp apart mark isMark)
    exact ⟨char, found, by simpa using notBlank⟩
  have differs : ∀ mark ∈ lineComment :: compoundOperators.map (·.1),
      mark.toList[1]? ≠ rest.head? := by
    intro mark isMark same
    obtain ⟨char, found, notBlank⟩ := second mark isMark
    rw [delimited char (same ▸ found)] at notBlank
    cases notBlank
  rw [List.forall_mem_cons]
  constructor
  · have other := differs lineComment List.mem_cons_self
    cases rest with
    | nil => simp [read?, lineComment]
    | cons next more =>
        have noSlash : '/' ≠ next := by simpa [lineComment] using other
        simp [read?, lineComment, noSlash]
  · rw [List.forall_mem_singleton]
    apply Vocabulary.read?_eq_none
    intro entry known same
    apply differs entry.1 (List.mem_cons_of_mem _ (List.mem_map_of_mem known))
    rw [same]
    cases rest with
    | nil => rfl
    | cons next more => rfl

/-- Where a blank character follows or the text ends, an operator of one character is not the start
of a longer one or of a comment. -/
theorem usual_single {entry : String × Kind} (known : entry ∈ singleOperators)
    {rest : List Char} (delimited : Delimited rest) :
    usual.findSome? (·.read? (entry.1.toList ++ rest)) =
      some (.token entry.1.toList.length entry.2 (.text entry.1)) := by
  have found : singleOperators.kindOf? entry.1 = some entry.2 := by
    revert entry
    decide
  have fits : entry.1.toList.length = 1 := by
    revert entry
    decide
  apply usual_reads [comment, compound] single rfl
  · rcases List.length_eq_one_iff.mp fits with ⟨first, shape⟩
    rw [shape]
    exact declined_of_delimited delimited first
  · rw [fits]
    exact Vocabulary.read?_append found fits rest

/-- An operator of one character is read by itself, unless something longer is tried before. -/
theorem single_reads {mark : Char} {kind : Kind}
    (known : singleOperators.kindOf? (String.ofList [mark]) = some kind) (rest : List Char) :
    single.read? (mark :: rest) = some (.token 1 kind (.text (String.ofList [mark]))) := by
  have start : String.ofList ((mark :: rest).take 1) = String.ofList [mark] := rfl
  simp only [read?, Vocabulary.read?, start, known, Option.map_some]

theorem usual_string {inside : List Char} (clean : stringDelimiter ∉ inside) (rest : List Char) :
    usual.findSome? (·.read? (stringDelimiter :: (inside ++ stringDelimiter :: rest))) =
      some (.token (inside.length + 2) .string (.text (String.ofList inside))) := by
  have passed := forall_ne_of_not_mem clean
  have stopped : decide (stringDelimiter ≠ stringDelimiter) = false := rfl
  have taken := takeWhile_ended passed stopped rest
  have left := dropWhile_ended passed stopped rest
  apply usual_reads [comment, compound, single, blank] string rfl
  · exact declined_of_opens (by decide) _
  · simp only [read?, if_true, taken, left, List.isEmpty_cons, if_neg Bool.false_ne_true]

theorem usual_character (value : Char) (rest : List Char) :
    usual.findSome? (·.read? (characterDelimiter :: value :: characterDelimiter :: rest)) =
      some (.token 3 .character (.character value)) := by
  apply usual_reads [comment, compound, single, blank, string] character rfl
  · exact declined_of_opens (by decide) _
  · simp [read?]

/-- A run that is ended by a character of another class is read to its end. -/
theorem endedRun?_append {inClass : Char → Bool} {run : List Char} (filled : run ≠ [])
    (member : ∀ char ∈ run, inClass char = true) {next : Char} (foreign : inClass next = false)
    (rest : List Char) : endedRun? inClass (run ++ next :: rest) = some run := by
  have taken := takeWhile_ended member foreign rest
  have left := dropWhile_ended member foreign rest
  simp [endedRun?, taken, left, filled]

/-- A run of digits is an integer if its value is in range, and otherwise it is refused. -/
theorem usual_digits {digits : List Char} (filled : digits ≠ [])
    (areDigits : ∀ digit ∈ digits, digit.isDigit = true) {rest : List Char}
    (ended : Ended Char.isDigit rest) :
    usual.findSome? (·.read? (digits ++ rest)) =
      some (if Nat.ofDigitChars 10 digits 0 ≤ largestInteger then
        .token digits.length .integer (.integer (.ofNat (Nat.ofDigitChars 10 digits 0)))
      else .fault (.integerOutOfRange (String.ofList digits))) := by
  obtain ⟨next, rest, rfl, foreign⟩ := ended
  apply usual_reads [comment, compound, single, blank, string, character] integer rfl
  · rcases List.exists_cons_of_ne_nil filled with ⟨first, more, rfl⟩
    have wordChar := isWordChar_of_isDigit (areDigits first List.mem_cons_self)
    exact declined_of_opens (opens_of_isWordChar wordChar) _
  · rw [read?, endedRun?_append filled areDigits foreign, Option.map_some]

theorem usual_integer {digits : List Char} (filled : digits ≠ [])
    (areDigits : ∀ digit ∈ digits, digit.isDigit = true)
    (inRange : Nat.ofDigitChars 10 digits 0 ≤ largestInteger) {rest : List Char}
    (ended : Ended Char.isDigit rest) :
    usual.findSome? (·.read? (digits ++ rest)) =
      some (.token digits.length .integer (.integer (.ofNat (Nat.ofDigitChars 10 digits 0)))) := by
  rw [usual_digits filled areDigits ended, if_pos inRange]

/-- Only a word starts with a letter, and a character of another class ends it. -/
theorem usual_word {first : Char} {letters : List Char} (letter : first.isAlpha = true)
    (wordChars : ∀ char ∈ letters, isWordChar char = true) {rest : List Char}
    (ended : Ended isWordChar rest) :
    usual.findSome? (·.read? (first :: letters ++ rest)) =
      some (.token (first :: letters).length
        ((keywords.kindOf? (String.ofList (first :: letters))).getD .identifier)
        (.text (String.ofList (first :: letters)))) := by
  obtain ⟨next, rest, rfl, foreign⟩ := ended
  have wordChar := isWordChar_of_isAlpha letter
  have run := endedRun?_append (List.cons_ne_nil first letters)
    (List.forall_mem_cons.mpr ⟨wordChar, wordChars⟩) foreign rest
  apply usual_reads [comment, compound, single, blank, string, character, integer] word rfl
  · have notDigit : ∀ recognizer ∈ [integer], recognizer.opens first = false :=
      List.forall_mem_singleton.mpr (isDigit_of_isAlpha letter)
    have foreign := List.forall_mem_append.mpr ⟨opens_of_isWordChar wordChar, notDigit⟩
    exact declined_of_opens foreign _
  · rw [List.cons_append] at run ⊢
    simp only [read?, if_pos letter, run, Option.map_some]

end Recognizer

end CLike
