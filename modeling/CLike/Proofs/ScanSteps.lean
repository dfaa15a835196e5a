/-
Module: CLike.Proofs.ScanSteps
Layer: Proofs
Purpose: The steps in which a line is scanned, whether it is refused in the end or not, and how
  little of the text behind a token its reading depends on.
Main exports: Resumes, Token.WrittenAs.reads_resumed, scanLine_inert, Scanned, scanned
-/
import CLike.Proofs.Readings

namespace CLike

/-!
### Behind a token

A token is read up to its end without a look at more than one character behind it.  That character
ends a run, and it decides whether an operator of one character is the start of a comment or of a
longer operator.  A blank in its place never makes a token longer.
-/

/-- Behind a token the second text can stand in place of the first one: it goes on with the same
character, or with a blank one. -/
def Resumes (rest other : List Char) : Prop :=
  ∃ next more, other = next :: more ∧ (rest.head? = some next ∨ Text.isBlank next = true)

namespace Resumes

/-- A blank can stand behind every token. -/
theorem blank (rest more : List Char) : Resumes rest (' ' :: more) :=
  ⟨' ', more, rfl, .inr (by decide)⟩

/-- Text that goes on in two ways can be exchanged where it is not empty. -/
theorem append {before : List Char} (filled : before ≠ []) (behind other : List Char) :
    Resumes (before ++ behind) (before ++ other) := by
  obtain ⟨first, more, rfl⟩ := List.exists_cons_of_ne_nil filled
  exact ⟨first, more ++ other, rfl, .inl rfl⟩

/-- A run is still ended. -/
theorem ended {inClass : Char → Bool} {rest other : List Char} (resumes : Resumes rest other)
    (within : ∀ char, inClass char = true → isWordChar char = true)
    (ended : Ended inClass rest) : Ended inClass other := by
  obtain ⟨next, more, rfl, same | blank⟩ := resumes
  · obtain ⟨first, later, rfl, foreign⟩ := ended
    obtain rfl := Option.some.inj same
    exact ⟨first, more, rfl, foreign⟩
  · have noWord : Ended isWordChar (next :: more) := ⟨next, more, rfl, isWordChar_of_isBlank blank⟩
    exact noWord.mono within

end Resumes

namespace Recognizer

/-- Comments and operators are told by two characters. -/
theorem marks_of_take {one two : List Char} (same : one.take 2 = two.take 2) :
    ∀ recognizer ∈ [comment, compound, single], recognizer.read? one = recognizer.read? two := by
  have sameFirst : one.take 1 = two.take 1 := by
    have shorter := congrArg (List.take 1) same
    rwa [List.take_take, List.take_take] at shorter
  have sameComment : lineComment.toList <+: one ↔ lineComment.toList <+: two := by
    have long : lineComment.toList.length = 2 := rfl
    rw [List.prefix_iff_eq_take, List.prefix_iff_eq_take, long, same]
  rw [← List.isPrefixOf_iff_prefix, ← List.isPrefixOf_iff_prefix, ← Bool.eq_iff_iff]
    at sameComment
  simp only [List.forall_mem_cons, read?, Vocabulary.read?, same, sameFirst, sameComment, true_and]
  exact List.forall_mem_nil _

/-- Where an operator character starts two texts that go on with the same character, they start with
the same operator or comment. -/
theorem usual_of_take {one two : List Char} (same : one.take 2 = two.take 2)
    (isMark : single.read? one ≠ none) :
    usual.findSome? (·.read? one) = usual.findSome? (·.read? two) := by
  have order : usual = [comment, compound, single] ++ [blank, string, character, integer, word] :=
    rfl
  have marks : [comment, compound, single].findSome? (·.read? one) =
      [comment, compound, single].findSome? (·.read? two) := by
    have each := marks_of_take same
    simp only [List.forall_mem_cons] at each
    simp only [List.findSome?_cons, List.findSome?_nil, each]
  have decided : [comment, compound, single].findSome? (·.read? one) ≠ none := fun declined =>
    isMark (List.findSome?_eq_none_iff.mp declined single (by decide))
  obtain ⟨reading, read⟩ := Option.ne_none_iff_exists'.mp decided
  rw [order, List.findSome?_append, List.findSome?_append, ← marks, read, Option.some_or,
    Option.some_or]

end Recognizer

/-- A run is no operator. -/
theorem Kind.isSingle_of_isRun {kind : Kind} (isRun : kind.isRun = true) :
    kind.isSingle = false := by
  revert isRun
  cases kind <;> decide

namespace Token

/-- An operator of one character is written as this character. -/
theorem Lexable.spelling_of_isSingle {token : Token} (lexable : token.Lexable)
    (isSingle : token.kind.isSingle = true) :
    ∃ mark, token.spelling.toList = [mark] ∧
      singleOperators.kindOf? (String.ofList [mark]) = some token.kind := by
  have apart : ∀ entry ∈ keywords ++ compoundOperators, entry.2.isSingle = false := by decide
  have marks : ∀ entry ∈ singleOperators, entry.1.toList.length = 1 ∧
      singleOperators.kindOf? entry.1 = some entry.2 := by decide
  cases lexable with
  | keyword known position =>
      rw [apart _ (List.mem_append_left _ known)] at isSingle
      cases isSingle
  | compound known position =>
      rw [apart _ (List.mem_append_right _ known)] at isSingle
      cases isSingle
  | single known position =>
      obtain ⟨long, found⟩ := marks _ known
      obtain ⟨mark, shape⟩ := List.length_eq_one_iff.mp long
      refine ⟨mark, ?_, ?_⟩
      · rw [spelling_of_entry (by decide) known, shape]
      · rwa [← shape, String.ofList_toList]
  | identifier named unreserved position => cases isSingle
  | integer nonnegative position => cases isSingle
  | character sameLine position => cases isSingle
  | string unquoted sameLine position => cases isSingle

variable {token : Token} {span rest other : List Char}

/-- A token that is read is read again where other text resumes behind it. -/
theorem WrittenAs.reads_resumed (written : token.WrittenAs span rest)
    (read : Recognizer.usual.findSome? (·.read? (span ++ rest)) =
      some (.token span.length token.kind token.literal)) (resumes : Resumes rest other) :
    Recognizer.usual.findSome? (·.read? (span ++ other)) =
      some (.token span.length token.kind token.literal) := by
  cases written with
  | closed lexable noRun =>
      have noEnd : token.kind.isRun = true → Ended isWordChar other := fun isRun => by
        rw [noRun] at isRun
        cases isRun
      by_cases isSingle : token.kind.isSingle = true
      · obtain ⟨next, more, rfl, same | blank⟩ := resumes
        · obtain ⟨mark, shape, known⟩ := lexable.spelling_of_isSingle isSingle
          rw [shape] at read ⊢
          obtain ⟨later, rfl⟩ := List.head?_eq_some_iff.mp same
          have isMark : Recognizer.single.read? (mark :: next :: later) ≠ none := by
            rw [Recognizer.single_reads known]
            exact Option.some_ne_none _
          have seen : (mark :: next :: later).take 2 = (mark :: next :: more).take 2 := rfl
          exact (Recognizer.usual_of_take seen isMark).symm.trans read
        · refine lexable.reads (fun _ first isFirst => ?_) noEnd
          obtain rfl := Option.some.inj isFirst
          exact blank
      · exact lexable.reads (fun isSingle' => absurd isSingle' isSingle) noEnd
  | word lexable isRun noNumber ended =>
      have noSingle := Kind.isSingle_of_isRun isRun
      refine lexable.reads (fun isSingle => ?_) fun _ => resumes.ended (fun _ => id) ended
      rw [noSingle] at isSingle
      cases isSingle
  | @integer value _ _ nonnegative filled areDigits valued ended position =>
      have below := value.toInt_lt
      have inRange : Nat.ofDigitChars 10 span 0 ≤ largestInteger := by
        unfold largestInteger
        omega
      have same : Int32.ofNat (Nat.ofDigitChars 10 span 0) = value := by
        rw [← Int32.ofInt_eq_ofNat, valued, Int32.ofInt_toInt]
      rw [← same]
      exact Recognizer.usual_integer filled areDigits inRange
        (resumes.ended (fun _ => isWordChar_of_isDigit) ended)

end Token

/-!
### A scan in steps

Each step of a scan passes an idle character or a token, or it is the last one: at the end of the
line, at a comment or at something that has to be refused.
-/

/-- At an inert character nothing starts that is longer than itself. -/
theorem scanLine_inert {first : Char} (inert : isInert first = true) (rest : List Char)
    (line column : Nat) :
    scanLine Recognizer.usual line column 0 (first :: rest) =
      scanLine Recognizer.usual line (column + 1) 0 rest := by
  cases isBlank : Text.isBlank first with
  | true => exact scanLine_blank isBlank rest line column
  | false =>
      have foreign : ∀ recognizer ∈ Recognizer.usual, recognizer.opens first = false := by
        intro recognizer _
        by_cases noBlank : recognizer = .blank
        · rw [noBlank]
          exact isBlank
        · exact Recognizer.opens_of_isInert inert noBlank
      have declined := List.findSome?_eq_none_iff.mpr (Recognizer.declined_of_opens foreign rest)
      rw [scanLine, declined]

/-- The rest of a line is scanned from the given column on, with this outcome. -/
inductive Scanned (line : Nat) :
    (column : Nat) → List Char → Except LexicalError (List Lexeme) → Prop where
  | finish (column : Nat) : Scanned line column [] (.ok [])
  | comment (column : Nat) (text : List Char) :
      Scanned line column (lineComment.toList ++ text) (.ok [])
  | skip {column : Nat} {first : Char} {rest : List Char}
      {outcome : Except LexicalError (List Lexeme)} (idle : Idle first rest)
      (more : Scanned line (column + 1) rest outcome) :
      Scanned line column (first :: rest) outcome
  | token {column : Nat} {token : Token} {span rest : List Char}
      {outcome : Except LexicalError (List Lexeme)} (written : token.WrittenAs span rest)
      (read : Recognizer.usual.findSome? (·.read? (span ++ rest)) =
        some (.token span.length token.kind token.literal))
      (placed : token.position = ⟨line, column⟩)
      (more : Scanned line (column + span.length) rest outcome) :
      Scanned line column (span ++ rest) (outcome.map ([⟨token, span.length⟩] ++ ·))
  | fault {text : List Char} {cause : LexicalError} (column : Nat)
      (fits : (Reading.fault cause).Fits text) : Scanned line column text (.error cause)

/-- A line is scanned as the scanner reads it. -/
theorem scanned {line column : Nat} {text : List Char} (sameLine : '\n' ∉ text) :
    Scanned line column text (scanLine Recognizer.usual line column 0 text) := by
  generalize size : text.length = length
  induction length using Nat.strongRecOn generalizing column text with
  | ind length ih =>
  cases text with
  | nil =>
      rw [scanLine]
      exact .finish column
  | cons first rest =>
      have sameLineRest : '\n' ∉ rest := fun member => sameLine (List.mem_cons_of_mem _ member)
      have shorter : rest.length < length := by
        rw [← size]
        exact Nat.lt_succ_self _
      cases found : Recognizer.usual.findSome? (·.read? (first :: rest)) with
      | none =>
          rw [scanLine, found]
          exact .skip (Recognizer.idle_of_none found) (ih _ shorter sameLineRest rfl)
      | some reading =>
          obtain ⟨recognizer, -, readHere⟩ := List.exists_of_findSome?_eq_some found
          have fits := Recognizer.fits_of_read? sameLine readHere
          cases reading with
          | comment =>
              obtain ⟨more, shape⟩ := fits
              rw [shape, scanLine_comment]
              exact .comment column more
          | blank width =>
              obtain ⟨filled, same⟩ := fits
              have blank : Text.isBlank first = true := by
                by_contra visible
                rw [List.takeWhile_cons_of_neg visible] at same
                exact filled same
              rw [scanLine_blank blank]
              exact .skip (.inert (isInert_of_isBlank blank)) (ih _ shorter sameLineRest rfl)
          | token width kind literal =>
              obtain ⟨span, more, shape, rfl, written⟩ := fits
              have filled := (written .unplaced).filled
              rw [shape] at found sameLine size ⊢
              rw [scanLine_token filled found]
              have shorterMore : more.length < length := by
                rw [← size, List.length_append]
                exact Nat.lt_add_of_pos_left (List.length_pos_iff.mpr filled)
              have sameLineMore : '\n' ∉ more :=
                fun member => sameLine (List.mem_append_right _ member)
              exact .token (written _) found rfl (ih _ shorterMore sameLineMore rfl)
          | fault cause =>
              rw [scanLine, found]
              exact .fault column fits

end CLike
