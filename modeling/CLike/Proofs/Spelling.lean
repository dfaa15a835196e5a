/-
Module: CLike.Proofs.Spelling
Layer: Proofs
Purpose: Lexing undoes spelling, whatever blank characters and comments stand between the tokens.
Main exports: Token.Lexable, Layout, Token.Gap, written, Yields, Token.Lexable.reads,
  yields_written, lex_of_yields, lex_written
-/
import CLike.Lexeme.Scan
import CLike.Proofs.Likeness
import CLike.Proofs.Recognition
import Mathlib.Data.List.TakeWhile

namespace CLike

/-!
### What can be written down

Not every token is the reading of a text: class and value have to fit each other, and some values
have no spelling.
-/

/-- A letter, and after that letters, digits and underscores. -/
def isName (name : String) : Bool :=
  match name.toList with
  | [] => false
  | first :: letters => first.isAlpha && letters.all isWordChar

theorem isName_iff {name : String} :
    isName name = true ↔ ∃ first letters, name.toList = first :: letters ∧
      first.isAlpha = true ∧ ∀ char ∈ letters, isWordChar char = true := by
  unfold isName
  split
  · next empty => simp [empty]
  · next first letters shape =>
      rw [Bool.and_eq_true, List.all_eq_true]
      constructor
      · exact fun named => ⟨first, letters, shape, named⟩
      · rintro ⟨_, _, same, named⟩
        rw [shape] at same
        cases same
        exact named

/-- The tokens that have a spelling from which they can be read. -/
inductive Token.Lexable : Token → Prop where
  | keyword {entry : String × Kind} (known : entry ∈ keywords) (position : Position) :
      Lexable ⟨entry.2, .text entry.1, position⟩
  | compound {entry : String × Kind} (known : entry ∈ compoundOperators) (position : Position) :
      Lexable ⟨entry.2, .text entry.1, position⟩
  | single {entry : String × Kind} (known : entry ∈ singleOperators) (position : Position) :
      Lexable ⟨entry.2, .text entry.1, position⟩
  | identifier {name : String} (named : isName name = true)
      (unreserved : keywords.kindOf? name = none) (position : Position) :
      Lexable ⟨.identifier, .text name, position⟩
  | integer {value : Int32} (nonnegative : 0 ≤ value) (position : Position) :
      Lexable ⟨.integer, .integer value, position⟩
  | character {value : Char} (sameLine : value ≠ '\n') (position : Position) :
      Lexable ⟨.character, .character value, position⟩
  | string {text : String} (unquoted : stringDelimiter ∉ text.toList)
      (sameLine : '\n' ∉ text.toList) (position : Position) :
      Lexable ⟨.string, .text text, position⟩

/-- Whether tokens of a class are read as runs, which need something behind them in their line. -/
def Kind.isRun (kind : Kind) : Bool :=
  kind == .integer || kind == .identifier || keywords.any (·.2 == kind)

/-- Whether tokens of a class are operators or marks of one character, which another one behind them
can make longer. -/
def Kind.isSingle (kind : Kind) : Bool := singleOperators.any (·.2 == kind)

theorem Kind.isSingle_of_mem {entry : String × Kind} (known : entry ∈ singleOperators) :
    entry.2.isSingle = true :=
  List.any_eq_true.mpr ⟨entry, known, beq_self_eq_true _⟩

/-- Blank characters and whole comments, in any order. -/
inductive Layout : List Char → Prop where
  | nil : Layout []
  | blank {char : Char} {rest : List Char} (isBlank : Text.isBlank char = true)
      (more : Layout rest) : Layout (char :: rest)
  | comment {text rest : List Char} (sameLine : '\n' ∉ text) (more : Layout rest) :
      Layout (lineComment.toList ++ text ++ '\n' :: rest)

/-- What can stand behind a token: layout that starts with a blank character, which does not end the
line where the token is a run. -/
def Token.Gap (token : Token) (gap : List Char) : Prop :=
  ∃ first rest, gap = first :: rest ∧ Text.isBlank first = true ∧ Layout rest ∧
    (token.kind.isRun = true → first ≠ '\n')

/-- The spellings of some tokens, each with what stands behind it. -/
def written : List (Token × String) → String
  | [] => ""
  | (token, gap) :: later => token.spelling ++ gap ++ written later

/-!
### The spelling of one token
-/

namespace Token

theorem spelling_of_bare {token : Token} (noString : token.kind ≠ .string)
    (noCharacter : token.kind ≠ .character) : token.spelling = token.text := by
  unfold spelling
  split
  · next isString => exact absurd isString noString
  · next isCharacter => exact absurd isCharacter noCharacter
  · rfl

/-- The digits of an integer that is not negative say what it is. -/
theorem digits_integer {value : Int32} (nonnegative : 0 ≤ value) :
    ∃ number, value.toInt.repr.toList = Nat.toDigits 10 number ∧ number ≤ largestInteger ∧
      Int32.ofNat number = value := by
  obtain ⟨number, same⟩ := Int.eq_ofNat_of_zero_le (Int32.le_iff_toInt_le.mp nonnegative)
  refine ⟨number, ?_, ?_, ?_⟩
  · rw [same]
    exact Nat.toList_repr
  · have below := value.toInt_lt
    unfold largestInteger
    omega
  · rw [← Int32.ofInt_eq_ofNat, ← same, Int32.ofInt_toInt]

/-- A token whose text is in a vocabulary is written as that text. -/
theorem spelling_of_entry {vocabulary : Vocabulary}
    (bare : ∀ entry ∈ vocabulary, entry.2 ≠ .string ∧ entry.2 ≠ .character)
    {entry : String × Kind} (known : entry ∈ vocabulary) (position : Position) :
    (⟨entry.2, .text entry.1, position⟩ : Token).spelling = entry.1 :=
  spelling_of_bare (bare entry known).1 (bare entry known).2

theorem spelling_character (value : Char) (position : Position) :
    (⟨.character, .character value, position⟩ : Token).spelling.toList =
      [characterDelimiter, value, characterDelimiter] := by
  simp [spelling, text, Literal.display, characterDelimiter]

theorem spelling_string (text : String) (position : Position) :
    (⟨.string, .text text, position⟩ : Token).spelling.toList =
      stringDelimiter :: (text.toList ++ [stringDelimiter]) := by
  simp [spelling, Token.text, Literal.display, stringDelimiter]

/-- A word of letters, digits and underscores is read whole, and its class is looked up. -/
theorem reads_word {name : String} (named : isName name = true) {rest : List Char}
    (ended : Ended isWordChar rest) :
    Recognizer.usual.findSome? (·.read? (name.toList ++ rest)) =
      some (.token name.toList.length ((keywords.kindOf? name).getD .identifier) (.text name)) := by
  rcases isName_iff.mp named with ⟨first, letters, shape, letter, wordChars⟩
  have read := Recognizer.usual_word letter wordChars ended
  rwa [← shape, String.ofList_toList] at read

/-- The keywords are words like any others, and each is its own entry. -/
theorem keyword_reads : ∀ entry ∈ keywords, isName entry.1 = true ∧ entry.2.isRun = true ∧
    keywords.kindOf? entry.1 = some entry.2 := by
  decide

/-- A token is read from its spelling, whatever follows that does not belong to it: behind an
operator of one character nothing that makes it longer, and behind a run a character of another
class. -/
theorem Lexable.reads {token : Token} (lexable : token.Lexable) {rest : List Char}
    (delimited : token.kind.isSingle = true → Recognizer.Delimited rest)
    (ended : token.kind.isRun = true → Ended isWordChar rest) :
    Recognizer.usual.findSome? (·.read? (token.spelling.toList ++ rest)) =
      some (.token token.spelling.toList.length token.kind token.literal) := by
  cases lexable with
  | keyword known position =>
      obtain ⟨named, isRun, kind⟩ := keyword_reads _ known
      have read := reads_word named (ended isRun)
      rw [kind] at read
      rw [spelling_of_entry (by decide) known]
      exact read
  | compound known position =>
      rw [spelling_of_entry (by decide) known]
      exact Recognizer.usual_compound known rest
  | single known position =>
      rw [spelling_of_entry (by decide) known]
      exact Recognizer.usual_single known (delimited (Kind.isSingle_of_mem known))
  | identifier named unreserved position =>
      have read := reads_word named (ended rfl)
      rw [unreserved] at read
      exact read
  | @integer value nonnegative position =>
      rcases digits_integer nonnegative with ⟨number, digits, inRange, same⟩
      have areDigits : ∀ digit ∈ Nat.toDigits 10 number, digit.isDigit = true :=
        fun _ => Nat.isDigit_of_mem_toDigits (by decide) (by decide)
      have back : Nat.ofDigitChars 10 (Nat.toDigits 10 number) 0 = number :=
        Nat.ofDigitChars_ten_toDigits
      have read := Recognizer.usual_integer Nat.toDigits_ne_nil areDigits (by rwa [back])
        ((ended rfl).mono fun _ => isWordChar_of_isDigit)
      rw [back, same, ← digits] at read
      exact read
  | character sameLine position =>
      rw [spelling_character]
      exact Recognizer.usual_character _ rest
  | @string text unquoted sameLine position =>
      have read := Recognizer.usual_string unquoted rest
      rw [String.ofList_toList] at read
      rw [spelling_string]
      simpa using read

theorem entry_sameLine : ∀ entry ∈ keywords ++ compoundOperators ++ singleOperators,
    entry.1.toList ≠ [] ∧ '\n' ∉ entry.1.toList := by
  decide

/-- No spelling is empty, and none goes over the end of a line. -/
theorem Lexable.spelling_sameLine {token : Token} (lexable : token.Lexable) :
    token.spelling.toList ≠ [] ∧ '\n' ∉ token.spelling.toList := by
  cases lexable with
  | keyword known position =>
      rw [spelling_of_entry (by decide) known]
      exact entry_sameLine _ (by simp [known])
  | compound known position =>
      rw [spelling_of_entry (by decide) known]
      exact entry_sameLine _ (by simp [known])
  | single known position =>
      rw [spelling_of_entry (by decide) known]
      exact entry_sameLine _ (by simp [known])
  | @identifier name named unreserved position =>
      have spelled : (⟨.identifier, .text name, position⟩ : Token).spelling = name := rfl
      rcases isName_iff.mp named with ⟨first, letters, shape, letter, wordChars⟩
      rw [spelled, shape]
      constructor
      · exact List.cons_ne_nil first letters
      · intro member
        rcases List.mem_cons.mp member with rfl | member
        · revert letter
          decide
        · exact absurd (wordChars _ member) (by decide)
  | integer nonnegative position =>
      rcases digits_integer nonnegative with ⟨number, digits, -, -⟩
      constructor
      · intro empty
        exact Nat.toDigits_ne_nil (digits.symm.trans empty)
      · intro member
        have isDigit := Nat.isDigit_of_mem_toDigits (by decide) (by decide) (digits ▸ member)
        revert isDigit
        decide
  | character sameLine position =>
      rw [spelling_character]
      simp [characterDelimiter, sameLine.symm]
  | string unquoted sameLine position =>
      rw [spelling_string]
      simp [stringDelimiter, sameLine]

/-- A token that is no run is an operator, or it is written between two quotes. -/
theorem Lexable.spelling_of_closed {token : Token} (lexable : token.Lexable)
    (noRun : token.kind.isRun = false) :
    (∃ entry ∈ compoundOperators ++ singleOperators, token.spelling = entry.1) ∨
      ∃ quote inside, (quote = stringDelimiter ∨ quote = characterDelimiter) ∧
        token.spelling.toList = quote :: (inside ++ [quote]) := by
  cases lexable with
  | keyword known position =>
      rw [(keyword_reads _ known).2.1] at noRun
      cases noRun
  | compound known position =>
      exact .inl ⟨_, List.mem_append_left _ known, spelling_of_entry (by decide) known position⟩
  | single known position =>
      exact .inl ⟨_, List.mem_append_right _ known, spelling_of_entry (by decide) known position⟩
  | identifier named unreserved position => cases noRun
  | integer nonnegative position => cases noRun
  | @character value sameLine position =>
      exact .inr ⟨characterDelimiter, [value], .inr rfl, spelling_character value position⟩
  | @string text unquoted sameLine position =>
      exact .inr ⟨stringDelimiter, text.toList, .inl rfl, spelling_string text position⟩

/-- A run is spelled in characters of words. -/
theorem Lexable.spelling_of_run {token : Token} (lexable : token.Lexable)
    (isRun : token.kind.isRun = true) : ∀ char ∈ token.spelling.toList, isWordChar char = true := by
  have closed : ∀ entry ∈ compoundOperators ++ singleOperators, entry.2.isRun = false := by decide
  have ofName : ∀ {name : String}, isName name = true →
      ∀ char ∈ name.toList, isWordChar char = true := by
    intro name named
    obtain ⟨first, letters, shape, letter, wordChars⟩ := isName_iff.mp named
    rw [shape]
    exact List.forall_mem_cons.mpr ⟨isWordChar_of_isAlpha letter, wordChars⟩
  cases lexable with
  | keyword known position =>
      rw [spelling_of_entry (by decide) known]
      exact ofName (keyword_reads _ known).1
  | compound known position =>
      rw [closed _ (List.mem_append_left _ known)] at isRun
      cases isRun
  | single known position =>
      rw [closed _ (List.mem_append_right _ known)] at isRun
      cases isRun
  | identifier named unreserved position => exact ofName named
  | integer nonnegative position =>
      obtain ⟨number, digits, -, -⟩ := digits_integer nonnegative
      intro char member
      exact isWordChar_of_isDigit
        (Nat.isDigit_of_mem_toDigits (by decide) (by decide) (digits ▸ member))
  | character sameLine position => cases isRun
  | string unquoted sameLine position => cases isRun

end Token

/-!
### Reading on in a text

A text is cut into lines before anything is read.  `scanFrom` puts the pieces together again: what
is read from some place in a line on, to the end of the text.
-/

/-- The lexemes of a text from some place in a line on. -/
def scanFrom (line column : Nat) (text : List Char) : Except LexicalError (List Lexeme) := do
  let here ← scanLine Recognizer.usual line column 0 (text.takeWhile (· ≠ '\n'))
  let below ← scanLines Recognizer.usual (line + 1)
    (Text.lines (text.dropWhile (· ≠ '\n')).tail)
  return here ++ below

/-- A new line starts in its first column. -/
theorem scanLines_lines (line : Nat) (text : List Char) :
    scanLines Recognizer.usual line (Text.lines text) = scanFrom line 1 text := by
  by_cases more : '\n' ∈ text
  · rcases List.eq_append_cons_of_mem more with ⟨first, rest, rfl, sameLine⟩
    have inside := forall_ne_of_not_mem sameLine
    rw [Text.lines_append_newline sameLine, scanFrom, takeWhile_ended inside rfl,
      dropWhile_ended inside rfl]
    rfl
  · have inside := forall_ne_of_not_mem more
    rw [scanFrom, List.takeWhile_eq_self_iff.mpr inside, List.dropWhile_eq_nil_iff.mpr inside]
    cases text with
    | nil => rfl
    | cons first text =>
        rw [Text.lines_of_not_mem more (List.cons_ne_nil first text)]
        rfl

theorem lexemes_eq_scanFrom (source : String) : lexemes source = scanFrom 1 1 source.toList :=
  scanLines_lines 1 source.toList

theorem scanFrom_newline (line column : Nat) (rest : List Char) :
    scanFrom line column ('\n' :: rest) = scanFrom (line + 1) 1 rest := by
  have noLine : scanLine Recognizer.usual line column 0 [] = .ok [] := by rw [scanLine]
  rw [← scanLines_lines, scanFrom, List.takeWhile_cons_of_neg (by decide),
    List.dropWhile_cons_of_neg (by decide), List.tail_cons, noLine]
  cases scanLines Recognizer.usual (line + 1) (Text.lines rest) with
  | error cause => rfl
  | ok below => rfl

/-- What is read at the front of a line is read at the front of the text. -/
theorem scanFrom_append {piece rest : List Char} {line column next : Nat} {found : List Lexeme}
    (sameLine : '\n' ∉ piece)
    (read : scanLine Recognizer.usual line column 0 (piece ++ rest.takeWhile (· ≠ '\n')) =
      (scanLine Recognizer.usual line next 0 (rest.takeWhile (· ≠ '\n'))).map (found ++ ·)) :
    scanFrom line column (piece ++ rest) = (scanFrom line next rest).map (found ++ ·) := by
  have inside := forall_ne_of_not_mem sameLine
  rw [scanFrom, scanFrom, List.takeWhile_append_of_pos inside, List.dropWhile_append_of_pos inside,
    read]
  cases scanLine Recognizer.usual line next 0 (rest.takeWhile (· ≠ '\n')) with
  | error cause => rfl
  | ok here =>
      cases scanLines Recognizer.usual (line + 1)
          (Text.lines (rest.dropWhile (· ≠ '\n')).tail) with
      | error cause => rfl
      | ok below => exact congrArg Except.ok (List.append_assoc ..)

/-!
### Steps through a text

A token, a blank character and a comment with its newline are each read by themselves.
-/

/-- A token is read with all its characters, and the reading goes on behind them. -/
theorem scanLine_token {text rest : List Char} {kind : Kind} {literal : Literal}
    (filled : text ≠ []) (read : Recognizer.usual.findSome? (·.read? (text ++ rest)) =
      some (.token text.length kind literal)) (line column : Nat) :
    scanLine Recognizer.usual line column 0 (text ++ rest) =
      (scanLine Recognizer.usual line (column + text.length) 0 rest).map
        ([⟨⟨kind, literal, ⟨line, column⟩⟩, text.length⟩] ++ ·) := by
  rcases List.exists_cons_of_ne_nil filled with ⟨first, more, rfl⟩
  rw [List.cons_append] at read ⊢
  rw [scanLine, read]
  simp only [List.length_cons, Nat.add_sub_cancel]
  rw [scanLine_covered, List.length_append, Nat.min_eq_left (Nat.le_add_right ..), List.drop_left,
    Nat.add_right_comm, Nat.add_assoc]
  rfl

/-- A run of blank characters is passed one by one. -/
theorem scanLine_blanks (line column : Nat) (text : List Char) :
    scanLine Recognizer.usual line column (text.takeWhile Text.isBlank).length text =
      scanLine Recognizer.usual line column 0 text := by
  cases text with
  | nil => rfl
  | cons first rest =>
      cases isBlank : Text.isBlank first with
      | false =>
          rw [List.takeWhile_cons_of_neg (by simp [isBlank])]
          rfl
      | true =>
          have read := Recognizer.usual_blank isBlank rest
          rw [List.takeWhile_cons_of_pos isBlank]
          conv => rhs; rw [scanLine, read]
          rfl

theorem scanLine_blank {first : Char} (isBlank : Text.isBlank first = true) (rest : List Char)
    (line column : Nat) :
    scanLine Recognizer.usual line column 0 (first :: rest) =
      scanLine Recognizer.usual line (column + 1) 0 rest := by
  have read := Recognizer.usual_blank isBlank rest
  rw [scanLine, read]
  exact scanLine_blanks line (column + 1) rest

theorem scanLine_comment (rest : List Char) (line column : Nat) :
    scanLine Recognizer.usual line column 0 (lineComment.toList ++ rest) = .ok [] := by
  have read := Recognizer.usual_comment rest
  have shape : lineComment.toList = ['/', '/'] := rfl
  rw [shape, List.cons_append] at read ⊢
  rw [scanLine, read]

/-- Some tokens are read from a text, in whatever line and column it starts.  Their places are left
open. -/
def Yields (text : List Char) (tokens : List Token) : Prop :=
  ∀ line column, ∃ lexemes, scanFrom line column text = .ok lexemes ∧
    lexemes.map (·.token.unplaced) = tokens.map Token.unplaced

namespace Yields

variable {rest : List Char} {tokens : List Token}

theorem nil : Yields [] [] := fun _ _ => ⟨[], rfl, rfl⟩

theorem newline (later : Yields rest tokens) : Yields ('\n' :: rest) tokens := by
  intro line column
  rw [scanFrom_newline]
  exact later (line + 1) 1

theorem blank {char : Char} (isBlank : Text.isBlank char = true) (later : Yields rest tokens) :
    Yields (char :: rest) tokens := by
  by_cases ends : char = '\n'
  · rw [ends]
    exact later.newline
  · intro line column
    obtain ⟨lexemes, read, same⟩ := later line (column + 1)
    refine ⟨lexemes, ?_, same⟩
    have sameLine : '\n' ∉ [char] := fun member => ends (List.mem_singleton.mp member).symm
    have passed := scanLine_blank isBlank (rest.takeWhile (· ≠ '\n')) line column
    have whole : scanFrom line column ([char] ++ rest) =
        (scanFrom line (column + 1) rest).map ([] ++ ·) := by
      apply scanFrom_append sameLine
      rw [List.singleton_append, passed]
      exact (congrFun Except.map_id _).symm
    rw [List.singleton_append, read] at whole
    exact whole

theorem comment {text : List Char} (sameLine : '\n' ∉ text) (later : Yields rest tokens) :
    Yields (lineComment.toList ++ text ++ '\n' :: rest) tokens := by
  intro line column
  obtain ⟨lexemes, read, same⟩ := later (line + 1) 1
  refine ⟨lexemes, ?_, same⟩
  have wholeLine : '\n' ∉ lineComment.toList ++ text := by
    simp [lineComment, sameLine]
  have inside := forall_ne_of_not_mem wholeLine
  rw [← scanLines_lines] at read
  rw [scanFrom, takeWhile_ended inside rfl, dropWhile_ended inside rfl, scanLine_comment,
    List.tail_cons, read]
  rfl

/-- A layout says nothing. -/
theorem layout {text : List Char} (isLayout : Layout text) (later : Yields rest tokens) :
    Yields (text ++ rest) tokens := by
  induction isLayout with
  | nil => exact later
  | blank isBlank _ ih => exact ih.blank isBlank
  | comment sameLine _ ih =>
      rw [List.append_assoc, List.cons_append]
      exact ih.comment sameLine

/-- A token is read from its spelling if what follows delimits it. -/
theorem token {token : Token} (lexable : token.Lexable) (delimited : Recognizer.Delimited rest)
    (goesOn : token.kind.isRun = true → ∃ next more, rest = next :: more ∧ next ≠ '\n')
    (later : Yields rest tokens) : Yields (token.spelling.toList ++ rest) (token :: tokens) := by
  intro line column
  rcases lexable.spelling_sameLine with ⟨filled, sameLine⟩
  obtain ⟨lexemes, readLater, same⟩ := later line (column + token.spelling.toList.length)
  -- The recognizers see the rest of the line only, not the rest of the text.
  have delimitedLine : Recognizer.Delimited (rest.takeWhile (· ≠ '\n')) := by
    cases rest with
    | nil => exact delimited
    | cons first more =>
        intro next found
        rw [List.takeWhile_cons] at found
        split at found
        · exact delimited next found
        · cases found
  have endedLine : token.kind.isRun = true → Ended isWordChar (rest.takeWhile (· ≠ '\n')) := by
    intro isRun
    rcases goesOn isRun with ⟨next, more, rfl, other⟩
    refine ⟨next, more.takeWhile (· ≠ '\n'), by simp [other], ?_⟩
    exact isWordChar_of_isBlank (delimited next rfl)
  have read := lexable.reads (fun _ => delimitedLine) endedLine
  have whole := scanFrom_append sameLine (scanLine_token filled read line column)
  rw [readLater] at whole
  refine ⟨_, whole, ?_⟩
  exact congrArg (token.unplaced :: ·) same

/-- The tokens are read from their spellings, whatever their gaps are. -/
theorem written {pieces : List (Token × String)}
    (lexable : ∀ piece ∈ pieces, piece.1.Lexable)
    (gaps : ∀ piece ∈ pieces, piece.1.Gap piece.2.toList) :
    Yields (written pieces).toList (pieces.map (·.1)) := by
  induction pieces with
  | nil => exact .nil
  | cons piece later ih =>
      rcases piece with ⟨token, gap⟩
      rcases List.forall_mem_cons.mp lexable with ⟨lexableFirst, lexableLater⟩
      rcases List.forall_mem_cons.mp gaps with ⟨gapFirst, gapsLater⟩
      rcases gapFirst with ⟨first, rest, shape, isBlank, isLayout, sameLine⟩
      have behind := (ih lexableLater gapsLater).layout isLayout
      rw [CLike.written, String.toList_append, String.toList_append, shape, List.append_assoc]
      apply Yields.token lexableFirst
      · intro next same
        rw [← Option.some.inj same]
        exact isBlank
      · intro isRun
        exact ⟨first, _, rfl, sameLine isRun⟩
      · exact behind.blank isBlank

/-- Reading from the first line and column on is lexing. -/
theorem lex {source : String} (yields : Yields source.toList tokens) :
    ∃ found, lex source = .ok found ∧ found.map Token.unplaced = tokens.map Token.unplaced := by
  obtain ⟨lexemes, read, same⟩ := yields 1 1
  refine ⟨lexemes.map Lexeme.token, ?_, ?_⟩
  · rw [CLike.lex, lexemes_eq_scanFrom, read]
    rfl
  · rw [List.map_map]
    exact same

end Yields

/-- Lexing undoes spelling.  Tokens that can be written down are read back from their spellings, up
to their places, with any layout before the first one and any gap behind each. -/
theorem lex_written (start : String) (pieces : List (Token × String))
    (isLayout : Layout start.toList) (lexable : ∀ piece ∈ pieces, piece.1.Lexable)
    (gaps : ∀ piece ∈ pieces, piece.1.Gap piece.2.toList) :
    ∃ tokens, lex (start ++ written pieces) = .ok tokens ∧
      (tokens == pieces.map (·.1)) = true := by
  have yields : Yields (start ++ written pieces).toList (pieces.map (·.1)) := by
    rw [String.toList_append]
    exact (Yields.written lexable gaps).layout isLayout
  rcases yields.lex with ⟨tokens, read, same⟩
  exact ⟨tokens, read, Token.beq_iff_map_unplaced_eq.mpr same⟩

theorem lex_written_declaration :
    ∃ tokens, lex ("\t// 'note\n" ++ written
        [(.ofText .intType "int", " "), (.identifier "x", " // \"\n"), (.ofText .assign "=", "\n"),
          (.character '\'', "\r"), (.ofText .slash "/", " //\n"), (.integer 7, "\t")]) =
          .ok tokens ∧
      (tokens == [.ofText .intType "int", .identifier "x", .ofText .assign "=", .character '\'',
        .ofText .slash "/", .integer 7]) = true := by
  apply lex_written _ _
  · exact .blank (by decide) (@Layout.comment " 'note".toList [] (by decide) .nil)
  · have type : (Token.ofText .intType "int").Lexable :=
      @Token.Lexable.keyword ("int", .intType) (by decide) .unplaced
    have name : (Token.identifier "x").Lexable := .identifier (by decide) (by decide) .unplaced
    have assigns : (Token.ofText .assign "=").Lexable :=
      @Token.Lexable.single ("=", .assign) (by decide) .unplaced
    have quote : (Token.character '\'').Lexable := .character (by decide) .unplaced
    have slash : (Token.ofText .slash "/").Lexable :=
      @Token.Lexable.single ("/", .slash) (by decide) .unplaced
    have seven : (Token.integer 7).Lexable := .integer (by decide) .unplaced
    simp only [List.forall_mem_cons]
    exact ⟨type, name, assigns, quote, slash, seven, List.forall_mem_nil _⟩
  · have emptyNote : Layout "//\n".toList := @Layout.comment [] [] (by decide) .nil
    have quoteNote : Layout "// \"\n".toList := @Layout.comment " \"".toList [] (by decide) .nil
    simp only [List.forall_mem_cons]
    exact ⟨⟨' ', [], rfl, by decide, .nil, by decide⟩,
      ⟨' ', _, rfl, by decide, quoteNote, by decide⟩,
      ⟨'\n', [], rfl, by decide, .nil, by decide⟩,
      ⟨'\r', [], rfl, by decide, .nil, by decide⟩,
      ⟨' ', _, rfl, by decide, emptyNote, by decide⟩,
      ⟨'\t', [], rfl, by decide, .nil, by decide⟩, List.forall_mem_nil _⟩

end CLike
