/-
Module: CLike.Proofs.LineSeams
Layer: Proofs
Purpose: Texts are cut into tokens line by line: what stands on both sides of a newline is read as
  if it stood alone, and the tokens behind it are only further down.
Main exports: Token.lowered, newlines, Token.moved, scanLine_moved, scanFrom_append_newline,
  lexLines, lex_append_newline
-/
import CLike.Proofs.Spelling

namespace CLike

/-- The token so many lines further down. -/
def Token.lowered (lines : Nat) (token : Token) : Token :=
  { token with position := ⟨token.position.line + lines, token.position.column⟩ }

/-- The lexeme so many lines further down. -/
def Lexeme.lowered (lines : Nat) (lexeme : Lexeme) : Lexeme :=
  { lexeme with token := lexeme.token.lowered lines }

/-- The number of newlines in a text. -/
def newlines (text : String) : Nat := text.toList.count '\n'

/-- The token so many lines further down and so many columns further to the right. -/
def Token.moved (lines columns : Nat) (token : Token) : Token :=
  { token with position := ⟨token.position.line + lines, token.position.column + columns⟩ }

/-- The lexeme so many lines further down and so many columns further to the right. -/
def Lexeme.moved (lines columns : Nat) (lexeme : Lexeme) : Lexeme :=
  { lexeme with token := lexeme.token.moved lines columns }

theorem map_token_moved (lines columns : Nat) (found : List Lexeme) :
    (found.map (Lexeme.moved lines columns)).map Lexeme.token =
      (found.map Lexeme.token).map (Token.moved lines columns) := by
  simp only [List.map_map]
  rfl

theorem map_token_lowered (lines : Nat) (found : List Lexeme) :
    (found.map (Lexeme.lowered lines)).map Lexeme.token =
      (found.map Lexeme.token).map (Token.lowered lines) :=
  map_token_moved lines 0 found

/-!
### The place of a line

A scan does nothing with the number of its line and the column of its start but write them into the
tokens.
-/

theorem scanLine_moved (order : List Recognizer) (line lines column columns covered : Nat)
    (text : List Char) :
    scanLine order (line + lines) (column + columns) covered text =
      (scanLine order line column covered text).map (List.map (Lexeme.moved lines columns)) := by
  induction text generalizing column covered with
  | nil =>
      simp only [scanLine]
      rfl
  | cons first rest ih =>
      have later := fun covered => ih (column + 1) covered
      simp only [Nat.add_right_comm column 1 columns] at later
      cases covered with
      | succ covered =>
          simp only [scanLine]
          exact later covered
      | zero =>
          simp only [scanLine]
          split
          · exact later 0
          · rfl
          · exact later _
          · simp only [later]
            cases scanLine order line (column + 1) _ rest with
            | error cause => rfl
            | ok found => rfl
          · rfl

theorem scanLine_lowered (order : List Recognizer) (line lines column covered : Nat)
    (text : List Char) :
    scanLine order (line + lines) column covered text =
      (scanLine order line column covered text).map (List.map (Lexeme.lowered lines)) :=
  scanLine_moved order line lines column 0 covered text

theorem scanLines_lowered (order : List Recognizer) (line lines : Nat) (texts : List (List Char)) :
    scanLines order (line + lines) texts =
      (scanLines order line texts).map (List.map (Lexeme.lowered lines)) := by
  induction texts generalizing line with
  | nil => rfl
  | cons text later ih =>
      simp only [scanLines, scanLine_lowered, Nat.add_right_comm line lines 1, ih]
      cases scanLine order line 1 0 text with
      | error cause => rfl
      | ok here =>
          cases scanLines order (line + 1) later with
          | error cause => rfl
          | ok below => exact congrArg Except.ok List.map_append.symm

theorem scanFrom_lowered (line lines : Nat) (text : List Char) :
    scanFrom (line + lines) 1 text =
      (scanFrom line 1 text).map (List.map (Lexeme.lowered lines)) := by
  simp only [← scanLines_lines]
  exact scanLines_lowered Recognizer.usual line lines (Text.lines text)

/-!
### Seams

The induction is on the lines above the seam.  The last of them is ended by the newline of the seam
and would have been ended by the text's own end without it, which is the same to the scan.
-/

/-- A text without a newline is the rest of one line. -/
theorem scanFrom_sameLine {text : List Char} (sameLine : '\n' ∉ text) (line column : Nat) :
    scanFrom line column text = scanLine Recognizer.usual line column 0 text := by
  have inside := forall_ne_of_not_mem sameLine
  simp only [scanFrom, List.takeWhile_eq_self_iff.mpr inside, List.dropWhile_eq_nil_iff.mpr inside]
  cases scanLine Recognizer.usual line column 0 text with
  | error cause => rfl
  | ok here => exact congrArg Except.ok (List.append_nil here)

/-- A line that is ended by a newline is read, and then the text behind that. -/
theorem scanFrom_line {first : List Char} (sameLine : '\n' ∉ first) (rest : List Char)
    (line column : Nat) :
    scanFrom line column (first ++ '\n' :: rest) = do
      let here ← scanLine Recognizer.usual line column 0 first
      let below ← scanFrom (line + 1) 1 rest
      return here ++ below := by
  have inside := forall_ne_of_not_mem sameLine
  have ends : decide ('\n' ≠ '\n') = false := rfl
  simp only [← scanLines_lines]
  rw [scanFrom, takeWhile_ended inside ends, dropWhile_ended inside ends, List.tail_cons]

/-- A text that goes on behind a line can be read if both can, one after the other. -/
theorem scanFrom_line_eq_ok_iff {first : List Char} (sameLine : '\n' ∉ first) {rest : List Char}
    {line column : Nat} {found : List Lexeme} :
    scanFrom line column (first ++ '\n' :: rest) = .ok found ↔
      ∃ here below, scanLine Recognizer.usual line column 0 first = .ok here ∧
        scanFrom (line + 1) 1 rest = .ok below ∧ here ++ below = found := by
  rw [scanFrom_line sameLine]
  cases scanLine Recognizer.usual line column 0 first with
  | error cause => simp [bind, Except.bind]
  | ok here => cases scanFrom (line + 1) 1 rest <;> simp [bind, Except.bind, pure, Except.pure]

/-- It is refused for the line, or else for what is behind the line. -/
theorem scanFrom_line_eq_error_iff {first : List Char} (sameLine : '\n' ∉ first)
    {rest : List Char} {line column : Nat} {cause : LexicalError} :
    scanFrom line column (first ++ '\n' :: rest) = .error cause ↔
      scanLine Recognizer.usual line column 0 first = .error cause ∨
        ∃ here, scanLine Recognizer.usual line column 0 first = .ok here ∧
          scanFrom (line + 1) 1 rest = .error cause := by
  rw [scanFrom_line sameLine]
  cases scanLine Recognizer.usual line column 0 first with
  | error other => simp [bind, Except.bind]
  | ok here => cases scanFrom (line + 1) 1 rest <;> simp [bind, Except.bind, pure, Except.pure]

/-- What holds of a last line, and of each line with the text below it if it holds of this text,
holds of every text. -/
@[elab_as_elim]
theorem line_induction {motive : List Char → Prop} (text : List Char)
    (last : ∀ text, '\n' ∉ text → motive text)
    (line : ∀ first rest, '\n' ∉ first → motive rest → motive (first ++ '\n' :: rest)) :
    motive text := by
  induction length : text.length using Nat.strongRecOn generalizing text with
  | ind size ih =>
      by_cases more : '\n' ∈ text
      · obtain ⟨first, rest, rfl, sameLine⟩ := List.eq_append_cons_of_mem more
        have shorter : rest.length < size := by
          simp only [List.length_append, List.length_cons] at length
          omega
        exact line first rest sameLine (ih rest.length shorter rest rfl)
      · exact last text more

theorem scanFrom_append_newline (line column : Nat) (above below : List Char) :
    scanFrom line column (above ++ '\n' :: below) = do
      let first ← scanFrom line column above
      let second ← scanFrom (line + (above.count '\n' + 1)) 1 below
      return first ++ second := by
  induction above using line_induction generalizing line column with
  | last above sameLine =>
      have counted : line + (above.count '\n' + 1) = line + 1 := by
        simp only [List.count_eq_zero.mpr sameLine, Nat.zero_add]
      simp only [scanFrom_line sameLine, scanFrom_sameLine sameLine, counted]
  | line first rest sameLine ih =>
      have counted : line + 1 + (rest.count '\n' + 1) =
          line + ((first ++ '\n' :: rest).count '\n' + 1) := by
        simp only [List.count_append, List.count_cons_self, List.count_eq_zero.mpr sameLine]
        omega
      simp only [List.append_assoc, List.cons_append, scanFrom_line sameLine, ih, counted,
        bind_assoc, pure_bind]

/-!
### Texts

Tokens do not reach over a newline, so a text is read like its lines, each of them alone.
-/

/-- The tokens of the lexemes of a text. -/
theorem lex_eq_scanFrom (source : String) :
    lex source = (scanFrom 1 1 source.toList).map (·.map Lexeme.token) := by
  simp only [lex, lexemes_eq_scanFrom]

theorem lex_eq_ok_iff {source : String} {tokens : List Token} :
    lex source = .ok tokens ↔
      ∃ found, scanFrom 1 1 source.toList = .ok found ∧ found.map Lexeme.token = tokens := by
  rw [lex_eq_scanFrom]
  cases scanFrom 1 1 source.toList <;> simp [Except.map]

theorem lex_eq_error_iff {source : String} {cause : LexicalError} :
    lex source = .error cause ↔ scanFrom 1 1 source.toList = .error cause := by
  rw [lex_eq_scanFrom]
  cases scanFrom 1 1 source.toList <;> simp [Except.map]

/-- Reads some lines, each of them alone, and lowers its tokens by the number of lines above.  The
first line has so many of them above it already. -/
def lexLines : (above : Nat) → List (List Char) → Except LexicalError (List Token)
  | _, [] => .ok []
  | above, line :: below => do
    let here ← lex (String.ofList line)
    let later ← lexLines (above + 1) below
    return here.map (Token.lowered above) ++ later

theorem scanLines_eq_lexLines (above : Nat) {texts : List (List Char)}
    (sameLine : ∀ text ∈ texts, '\n' ∉ text) :
    (scanLines Recognizer.usual (above + 1) texts).map (·.map Lexeme.token) =
      lexLines above texts := by
  induction texts generalizing above with
  | nil => rfl
  | cons text later ih =>
      obtain ⟨sameLineHere, sameLineLater⟩ := List.forall_mem_cons.mp sameLine
      have alone : lex (String.ofList text) =
          (scanLine Recognizer.usual 1 1 0 text).map (·.map Lexeme.token) := by
        simp only [lex_eq_scanFrom, String.toList_ofList, scanFrom_sameLine sameLineHere]
      have lowered := scanLine_lowered Recognizer.usual 1 above 1 0 text
      rw [Nat.add_comm 1] at lowered
      rw [lexLines, alone, ← ih (above + 1) sameLineLater, scanLines, lowered]
      cases scanLine Recognizer.usual 1 1 0 text with
      | error cause => rfl
      | ok here =>
          cases scanLines Recognizer.usual (above + 1 + 1) later with
          | error cause => rfl
          | ok below =>
              refine congrArg Except.ok ?_
              simp only [List.map_append, map_token_lowered]

/-- Where two texts are joined by a newline, the first one decides first, with its error if it has
one, and the second one only after it.  If neither has an error, the tokens are those of the first
text and then those of the second, further down by the lines of the first.  So every text is read
line by line, each line as if it stood alone, whatever lines are empty and whatever ends a text. -/
theorem lex_append_newline (above below : String) :
    (lex (above ++ "\n" ++ below) = do
      let first ← lex above
      let second ← lex below
      return first ++ second.map (Token.lowered (1 + newlines above))) ∧
    ∀ source : String, lex source = lexLines 0 (Text.lines source.toList) := by
  constructor
  · have joined : (above ++ "\n" ++ below).toList = above.toList ++ '\n' :: below.toList := by
      simp
    simp only [lex_eq_scanFrom, joined, scanFrom_append_newline, scanFrom_lowered]
    cases scanFrom 1 1 above.toList with
    | error cause => rfl
    | ok first =>
        cases scanFrom 1 1 below.toList with
        | error cause => rfl
        | ok second =>
            refine congrArg Except.ok ?_
            simp only [List.map_append, map_token_lowered, newlines, Nat.add_comm 1]
  · intro source
    exact scanLines_eq_lexLines 0 fun _ => Text.not_mem_of_mem_lines

/-- A comment with a quote and empty lines on both sides of a newline, and quotes that are left open
before and behind one.  They are not closed on the other side of it. -/
theorem lex_append_newline_quotes :
    lex "a; // '\n" = .ok [⟨.identifier, .text "a", ⟨1, 1⟩⟩, ⟨.semicolon, .text ";", ⟨1, 2⟩⟩] ∧
      lex "\nb'c'" =
        .ok [⟨.identifier, .text "b", ⟨2, 1⟩⟩, ⟨.character, .character 'c', ⟨2, 2⟩⟩] ∧
      lex ("a; // '\n" ++ "\n" ++ "\nb'c'") =
        .ok [⟨.identifier, .text "a", ⟨1, 1⟩⟩, ⟨.semicolon, .text ";", ⟨1, 2⟩⟩,
          ⟨.identifier, .text "b", ⟨4, 1⟩⟩, ⟨.character, .character 'c', ⟨4, 2⟩⟩] ∧
      lex "'c" = .error .unclosedCharacter ∧ lex "\"';" = .error .unclosedString ∧
      lex ("'c" ++ "\n" ++ "\"';") = .error .unclosedCharacter ∧
      lex ("\nb'c'" ++ "\n" ++ "\"';") = .error .unclosedString := by
  have read : lex "a; // '\n" =
      .ok [⟨.identifier, .text "a", ⟨1, 1⟩⟩, ⟨.semicolon, .text ";", ⟨1, 2⟩⟩] := rfl
  have readBelow : lex "\nb'c'" =
      .ok [⟨.identifier, .text "b", ⟨2, 1⟩⟩, ⟨.character, .character 'c', ⟨2, 2⟩⟩] := rfl
  have refused : lex "'c" = .error .unclosedCharacter := rfl
  have refusedBelow : lex "\"';" = .error .unclosedString := rfl
  refine ⟨read, readBelow, ?_, refused, refusedBelow, ?_, ?_⟩
  · rw [(lex_append_newline _ _).1, read, readBelow]
    rfl
  · rw [(lex_append_newline _ _).1, refused]
    rfl
  · rw [(lex_append_newline _ _).1, readBelow, refusedBelow]
    rfl

end CLike
