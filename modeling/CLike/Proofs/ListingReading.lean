/-
Module: CLike.Proofs.ListingReading
Layer: Proofs
Purpose: The tokens of a source text can be read back from their listing, although nothing in it is
  escaped: neither a place nor a class holds a tab, and the text of a token goes up to the end of
  its line.
Main exports: Text.cutAt?, Position.ofText?, Literal.ofDisplay?, Token.record, Token.ofRecord?,
  readListing, Token.Lexable.ofRecord?_record, readListing_tokenListing, tokenListing_reads_back
-/
import CLike.Proofs.CommandRuns
import CLike.Proofs.LineSeams
import CLike.Proofs.Rereading

namespace CLike

/-!
### A reader for listings

It knows nothing of source texts.  A line is cut at its first two tabs, and the class of the token
says how its text is to be understood.
-/

/-- What stands in a text before the first one of some mark, and what stands behind that. -/
def Text.cutAt? (mark : Char) (text : List Char) : Option (List Char × List Char) :=
  match text.dropWhile (· ≠ mark) with
  | [] => none
  | _ :: behind => some (text.takeWhile (· ≠ mark), behind)

/-- The number that some digits make. -/
def Text.number? (text : List Char) : Option Nat :=
  if text.isEmpty || !text.all Char.isDigit then none else some (Nat.ofDigitChars 10 text 0)

/-- Reads a place back. -/
def Position.ofText? (text : List Char) : Option Position := do
  let (line, column) ← Text.cutAt? ':' text
  return ⟨← Text.number? line, ← Text.number? column⟩

/-- Reads the value of a token of some class back.  Integers have no sign in a source text. -/
def Literal.ofDisplay? : Kind → List Char → Option Literal
  | .integer, displayed => (Text.number? displayed).map fun value => .integer (.ofNat value)
  | .character, [value] => some (.character value)
  | .character, _ => none
  | _, displayed => some (.text (String.ofList displayed))

namespace Token

/-- The line that a token has in a listing. -/
def record (token : Token) : List Char :=
  token.position.text.toList ++ '\t' :: (token.kind.label.toList ++ '\t' :: token.text.toList)

/-- Reads a token back.  Everything behind the second tab is its text, further tabs included. -/
def ofRecord? (line : List Char) : Option Token := do
  let (place, line) ← Text.cutAt? '\t' line
  let (label, text) ← Text.cutAt? '\t' line
  let position ← Position.ofText? place
  let kind ← Kind.ofLabel? (String.ofList label)
  let literal ← Literal.ofDisplay? kind text
  return ⟨kind, literal, position⟩

end Token

/-- Reads the tokens of a listing back, one from each line. -/
def readListing (listing : String) : Option (List Token) :=
  (Text.lines listing.toList).mapM Token.ofRecord?

/-!
### Reading one line
-/

/-- A text is cut behind a part in which the mark does not occur. -/
theorem Text.cutAt?_append {mark : Char} {before : List Char} (clean : mark ∉ before)
    (behind : List Char) : cutAt? mark (before ++ mark :: behind) = some (before, behind) := by
  have passed := forall_ne_of_not_mem clean
  have stopped : decide (mark ≠ mark) = false := decide_eq_false fun differs => differs rfl
  rw [cutAt?, dropWhile_ended passed stopped, takeWhile_ended passed stopped]

/-- The decimal digits of a number say what it is. -/
theorem Text.number?_toDigits (number : Nat) : number? (Nat.toDigits 10 number) = some number := by
  have areDigits : (Nat.toDigits 10 number).all Char.isDigit = true :=
    List.all_eq_true.mpr fun _ => Nat.isDigit_of_mem_toDigits (by decide) (by decide)
  have filled : (Nat.toDigits 10 number).isEmpty = false :=
    List.isEmpty_eq_false_iff.mpr Nat.toDigits_ne_nil
  simp only [number?, filled, areDigits, Bool.not_true, Bool.or_self, if_neg Bool.false_ne_true,
    Nat.ofDigitChars_ten_toDigits]

theorem not_mem_repr {char : Char} (other : char.isDigit = false) (number : Nat) :
    char ∉ number.repr.toList := by
  intro member
  rw [Nat.toList_repr] at member
  rw [Nat.isDigit_of_mem_toDigits (by decide) (by decide) member] at other
  cases other

namespace Position

theorem toList_text (position : Position) :
    position.text.toList = position.line.repr.toList ++ ':' :: position.column.repr.toList := by
  simp [text]

/-- There are only digits and one colon in a place. -/
theorem not_mem_text {char : Char} (noDigit : char.isDigit = false) (noColon : char ≠ ':')
    (position : Position) : char ∉ position.text.toList := by
  rw [toList_text, List.mem_append, List.mem_cons]
  rintro (inLine | isColon | inColumn)
  · exact not_mem_repr noDigit _ inLine
  · exact noColon isColon
  · exact not_mem_repr noDigit _ inColumn

theorem ofText?_text (position : Position) : ofText? position.text.toList = some position := by
  rw [ofText?, toList_text, Text.cutAt?_append (not_mem_repr (by decide) _), Nat.toList_repr,
    Nat.toList_repr]
  simp only [Option.bind_eq_bind, Option.bind_some, Text.number?_toDigits]
  rfl

end Position

/-- No label goes on behind a tab or in another line. -/
theorem Kind.label_clean (kind : Kind) :
    '\t' ∉ kind.label.toList ∧ '\n' ∉ kind.label.toList := by
  cases kind <;> decide

/-- Only integers and characters are no texts. -/
theorem Literal.ofDisplay?_text {kind : Kind} (noInteger : kind ≠ .integer)
    (noCharacter : kind ≠ .character) (value : String) :
    ofDisplay? kind value.toList = some (.text value) := by
  unfold ofDisplay?
  split
  · exact absurd rfl noInteger
  · exact absurd rfl noCharacter
  · exact absurd rfl noCharacter
  · rw [String.ofList_toList]

/-- A value that suits its class is known from its class and from how it is displayed. -/
theorem Literal.Suits.ofDisplay?_display {kind : Kind} {literal : Literal}
    (suits : literal.Suits kind) : ofDisplay? kind literal.display.toList = some literal := by
  -- The cases are those of `Suits`.  The last one is for the words and marks of the tables.
  unfold Suits at suits
  split at suits
  · exact suits.elim
  · obtain ⟨name, rfl, -⟩ := suits
    exact ofDisplay?_text (by decide) (by decide) name
  · obtain ⟨value, rfl, nonnegative, -⟩ := suits
    obtain ⟨number, digits, -, same⟩ :=
      Token.digits_integer (Int32.le_iff_toInt_le.mpr nonnegative)
    rw [display, digits, ofDisplay?, Text.number?_toDigits, Option.map_some, same]
  · obtain ⟨value, rfl, -⟩ := suits
    rw [display, Char.toString, String.toList_singleton, ofDisplay?]
  · obtain ⟨inside, rfl, -⟩ := suits
    exact ofDisplay?_text (by decide) (by decide) inside
  · next noInteger noCharacter _ =>
      obtain ⟨lexeme, rfl, -⟩ := suits
      exact ofDisplay?_text noInteger noCharacter lexeme

namespace Token

/-- The text of a token that can be written down is in one line. -/
theorem Lexable.text_sameLine {token : Token} (lexable : token.Lexable) :
    '\n' ∉ token.text.toList := by
  intro member
  apply lexable.spelling_sameLine.2
  unfold spelling
  split <;> simp [member]

theorem Lexable.record_sameLine {token : Token} (lexable : token.Lexable) :
    '\n' ∉ token.record := by
  have cleanPlace := Position.not_mem_text (by decide) (by decide : '\n' ≠ ':') token.position
  simp [record, cleanPlace, token.kind.label_clean.2, lexable.text_sameLine]

/-- A token that can be written down is read back from its line, whatever is in its text. -/
theorem Lexable.ofRecord?_record {token : Token} (lexable : token.Lexable) :
    ofRecord? token.record = some token := by
  have cleanPlace := Position.not_mem_text (by decide) (by decide : '\t' ≠ ':') token.position
  have literal : Literal.ofDisplay? token.kind token.text.toList = some token.literal :=
    lexable.suits.ofDisplay?_display
  rw [ofRecord?, record, Text.cutAt?_append cleanPlace]
  simp only [Option.bind_eq_bind, Option.bind_some, Text.cutAt?_append token.kind.label_clean.1,
    Position.ofText?_text, String.ofList_toList, Kind.ofLabel?_label, literal]
  rfl

end Token

/-!
### Reading a listing
-/

theorem toList_tokenListing (tokens : List Token) :
    (tokenListing tokens).toList = (tokens.map Token.record).flatMap (· ++ ['\n']) := by
  simp [tokenListing, Token.record, List.flatMap_map]

section

variable {tokens : List Token} (lexable : ∀ token ∈ tokens, token.Lexable)

include lexable

/-- The lines of a listing are the lines of its tokens. -/
theorem lines_tokenListing : Text.lines (tokenListing tokens).toList = tokens.map Token.record := by
  rw [toList_tokenListing]
  apply Text.lines_flatMap_newline
  exact List.forall_mem_map.mpr fun token member => (lexable token member).record_sameLine

/-- What is read from a listing are the tokens that were listed. -/
theorem readListing_tokenListing : readListing (tokenListing tokens) = some tokens := by
  rw [readListing, lines_tokenListing lexable]
  induction tokens with
  | nil => rfl
  | cons token tokens ih =>
      rw [List.forall_mem_cons] at lexable
      rw [List.map_cons, List.mapM_cons, lexable.1.ofRecord?_record, ih lexable.2]
      rfl

theorem newlines_tokenListing : newlines (tokenListing tokens) = tokens.length := by
  rw [newlines, toList_tokenListing, Text.count_newline_flatMap, List.length_map]
  exact List.forall_mem_map.mpr fun token member => (lexable token member).record_sameLine

end

/-- A file that holds a source text has the tokens of the text. -/
theorem LexesTo.of_toUTF8 {source : String} {tokens : List Token} (read : lex source = .ok tokens) :
    LexesTo (.ok source.toUTF8) tokens := by
  have decoded : String.fromUTF8? source.toUTF8 = some source := dif_pos source.isValidUTF8
  exact ⟨_, source, rfl, decoded, read⟩

/-- The tokens of a source text can be read back from what is printed of them.  There is one line
for each token and a newline behind each line and nowhere else, and the lines say what the tokens
are.  Two source texts of which the same is printed have the same tokens, in class, value and
place. -/
theorem tokenListing_reads_back {source other : String} {tokens others : List Token}
    (read : lex source = .ok tokens) (readOther : lex other = .ok others)
    (path otherPath : String) :
    let printed := (Request.report ⟨path, true, false⟩ (.ok source.toUTF8)).output
    let printedOther := (Request.report ⟨otherPath, true, false⟩ (.ok other.toUTF8)).output
    Text.lines printed.toList = tokens.map Token.record ∧ newlines printed = tokens.length ∧
      readListing printed = some tokens ∧ (printed = printedOther ↔ tokens = others) := by
  intro printed printedOther
  have listed : printed = tokenListing tokens :=
    congrArg Report.output (Request.report_of_lexesTo (.of_toUTF8 read) ⟨path, true, false⟩)
  have listedOther : printedOther = tokenListing others :=
    congrArg Report.output
      (Request.report_of_lexesTo (.of_toUTF8 readOther) ⟨otherPath, true, false⟩)
  have lexable := lexable_of_lex read
  have lexableOther := lexable_of_lex readOther
  rw [listed, listedOther]
  refine ⟨lines_tokenListing lexable, newlines_tokenListing lexable,
    readListing_tokenListing lexable, fun same => ?_, congrArg tokenListing⟩
  apply Option.some.inj
  rw [← readListing_tokenListing lexable, same, readListing_tokenListing lexableOther]

/-- A string that looks like the rest of a line, a tab, a carriage return and an empty string.  The
listings of the two texts differ in the class of the first token only. -/
theorem tokenListing_reads_back_lookalike :
    let later : List Token := [⟨.string, .text "7\r1:9\tInt\tint", ⟨1, 5⟩⟩,
      ⟨.character, .character '\t', ⟨1, 21⟩⟩, ⟨.string, .text "", ⟨1, 25⟩⟩,
      ⟨.semicolon, .text ";", ⟨1, 27⟩⟩]
    let tokens := ⟨.string, .text "7", ⟨1, 1⟩⟩ :: later
    let others := ⟨.character, .character '7', ⟨1, 1⟩⟩ :: later
    let printed := (Request.report ⟨"a.c", true, false⟩
      (.ok "\"7\" \"7\r1:9\tInt\tint\" '\t' \"\";".toUTF8)).output
    let printedOther := (Request.report ⟨"b.c", true, false⟩
      (.ok "'7' \"7\r1:9\tInt\tint\" '\t' \"\";".toUTF8)).output
    lex "\"7\" \"7\r1:9\tInt\tint\" '\t' \"\";" = .ok tokens ∧
      lex "'7' \"7\r1:9\tInt\tint\" '\t' \"\";" = .ok others ∧
      Text.lines printed.toList = tokens.map Token.record ∧ newlines printed = 5 ∧
      readListing printed = some tokens ∧ printed ≠ printedOther := by
  intro later tokens others printed printedOther
  have read : lex "\"7\" \"7\r1:9\tInt\tint\" '\t' \"\";" = .ok tokens := rfl
  have readOther : lex "'7' \"7\r1:9\tInt\tint\" '\t' \"\";" = .ok others := rfl
  obtain ⟨lines, counted, back, same⟩ := tokenListing_reads_back read readOther "a.c" "b.c"
  have differs : tokens ≠ others := by decide
  exact ⟨read, readOther, lines, counted, back, mt same.mp differs⟩

end CLike
