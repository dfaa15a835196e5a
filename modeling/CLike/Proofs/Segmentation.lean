/-
Module: CLike.Proofs.Segmentation
Layer: Proofs
Purpose: A program is read segment by segment: each statement sees the tokens up to its own
  semicolon and nothing else.
Main exports: IsSegment, segments, remainder, Cursor.alone, segment_induction,
  program_reads_segmentwise
-/
import CLike.Proofs.Relocation
import Mathlib.Data.List.Forall2

namespace CLike

/-- The tokens of one statement: the last one is a semicolon and the only one. -/
def IsSegment (tokens : List Token) : Prop :=
  ∃ body semicolon, tokens = body ++ [semicolon] ∧ (∀ token ∈ body, token.kind ≠ .semicolon) ∧
    semicolon.kind = .semicolon

/-- The pieces that come from cutting some tokens behind each semicolon, without the tokens behind
the last one. -/
def segments : List Token → List (List Token)
  | [] => []
  | token :: rest =>
    if token.kind = .semicolon then [token] :: segments rest
    else
      match segments rest with
      | [] => []
      | first :: later => (token :: first) :: later

/-- The tokens behind the last semicolon. -/
def remainder : List Token → List Token
  | [] => []
  | token :: rest =>
    if (token :: rest).any (·.kind == .semicolon) then remainder rest else token :: rest

/-- Reads a statement from some tokens alone. -/
def Cursor.alone (tokens : List Token) : Reply Node := (Cursor.ofTokens tokens).statement

theorem segments_append {segment : List Token} (isSegment : IsSegment segment)
    (rest : List Token) : segments (segment ++ rest) = segment :: segments rest := by
  rcases isSegment with ⟨body, semicolon, rfl, clean, isSemicolon⟩
  induction body with
  | nil => simp [segments, isSemicolon]
  | cons token body ih =>
      rcases List.forall_mem_cons.mp clean with ⟨other, cleanRest⟩
      have later := ih cleanRest
      simp only [List.cons_append, segments, if_neg other]
      rw [later]

theorem remainder_append {segment : List Token} (isSegment : IsSegment segment)
    (rest : List Token) : remainder (segment ++ rest) = remainder rest := by
  rcases isSegment with ⟨body, semicolon, rfl, clean, isSemicolon⟩
  induction body with
  | nil => simp [remainder, isSemicolon]
  | cons token body ih =>
      rcases List.forall_mem_cons.mp clean with ⟨-, cleanRest⟩
      have ends : (token :: (body ++ [semicolon] ++ rest)).any (·.kind == .semicolon) = true := by
        simp [isSemicolon]
      rw [List.cons_append, List.cons_append, remainder, if_pos ends]
      exact ih cleanRest

theorem segments_of_unended {tokens : List Token}
    (unended : ∀ token ∈ tokens, token.kind ≠ .semicolon) : segments tokens = [] := by
  induction tokens with
  | nil => rfl
  | cons token rest ih =>
      rcases List.forall_mem_cons.mp unended with ⟨other, unendedRest⟩
      simp only [segments, if_neg other, ih unendedRest]

theorem remainder_of_unended {tokens : List Token}
    (unended : ∀ token ∈ tokens, token.kind ≠ .semicolon) : remainder tokens = tokens := by
  cases tokens with
  | nil => rfl
  | cons token rest =>
      have none_ends : (token :: rest).any (·.kind == .semicolon) = false := by
        simpa using unended
      rw [remainder, none_ends]
      rfl

theorem IsSegment.length_pos {segment : List Token} (isSegment : IsSegment segment) :
    0 < segment.length := by
  rcases isSegment with ⟨body, semicolon, rfl, -, -⟩
  simp

/-- Tokens with a semicolon start with a segment. -/
theorem unended_or_segment (tokens : List Token) :
    (∀ token ∈ tokens, token.kind ≠ .semicolon) ∨
      ∃ segment rest, tokens = segment ++ rest ∧ IsSegment segment := by
  induction tokens with
  | nil => exact .inl (List.forall_mem_nil _)
  | cons token rest ih =>
      by_cases isSemicolon : token.kind = .semicolon
      · exact .inr ⟨[token], rest, rfl, [], token, rfl, List.forall_mem_nil _, isSemicolon⟩
      · rcases ih with unended | ⟨_, later, rfl, body, semicolon, rfl, clean, ends⟩
        · exact .inl (List.forall_mem_cons.mpr ⟨isSemicolon, unended⟩)
        · refine .inr ⟨token :: (body ++ [semicolon]), later, rfl, token :: body, semicolon, rfl,
            ?_, ends⟩
          exact List.forall_mem_cons.mpr ⟨isSemicolon, clean⟩

/-- What holds of tokens without a semicolon, and is kept by putting a segment in front, holds of
all tokens. -/
theorem segment_induction {motive : List Token → Prop}
    (unended : ∀ tokens, (∀ token ∈ tokens, token.kind ≠ .semicolon) → motive tokens)
    (append : ∀ segment rest, IsSegment segment → motive rest → motive (segment ++ rest))
    (tokens : List Token) : motive tokens := by
  induction length : tokens.length using Nat.strongRecOn generalizing tokens with
  | ind _ ih =>
      rcases unended_or_segment tokens with clean | ⟨segment, rest, rfl, isSegment⟩
      · exact unended tokens clean
      · refine append segment rest isSegment (ih rest.length ?_ rest rfl)
        rw [← length, List.length_append]
        have := isSegment.length_pos
        omega

theorem flatten_segments_append_remainder (tokens : List Token) :
    (segments tokens).flatten ++ remainder tokens = tokens := by
  induction tokens using segment_induction with
  | unended tokens clean =>
      rw [segments_of_unended clean, remainder_of_unended clean]
      rfl
  | append segment rest isSegment ih =>
      rw [segments_append isSegment, remainder_append isSegment, List.flatten_cons,
        List.append_assoc, ih]

theorem isSegment_of_mem_segments {tokens segment : List Token}
    (member : segment ∈ segments tokens) : IsSegment segment := by
  induction tokens using segment_induction with
  | unended tokens clean =>
      rw [segments_of_unended clean] at member
      cases member
  | append first rest isSegment ih =>
      rw [segments_append isSegment] at member
      rcases List.mem_cons.mp member with rfl | later
      · exact isSegment
      · exact ih later

theorem remainder_unended (tokens : List Token) :
    ∀ token ∈ remainder tokens, token.kind ≠ .semicolon := by
  induction tokens using segment_induction with
  | unended tokens clean =>
      rw [remainder_of_unended clean]
      exact clean
  | append segment rest isSegment ih =>
      rw [remainder_append isSegment]
      exact ih

/-!
### One statement

The tokens of a segment decide about the statement that starts with them, and if it can be read, the
cursor comes to stand exactly behind them.
-/

namespace Cursor

private theorem terminated_withBound (bound : Nat) (outcome : Except GrammarError Node)
    (cursor : Cursor) :
    terminated ⟨outcome, cursor.withBound bound⟩ =
      ⟨(terminated ⟨outcome, cursor⟩).outcome,
        (terminated ⟨outcome, cursor⟩).cursor.withBound bound⟩ := by
  rcases cursor with ⟨position, rest, outer⟩
  cases outcome with
  | error cause => rfl
  | ok node =>
      cases rest with
      | nil => rfl
      | cons token rest =>
          simp only [terminated, withBound]
          split
          · rfl
          · rfl

/-- The bound that a statement finds makes no difference to it. -/
theorem statement_withBound (bound : Nat) (cursor : Cursor) :
    (cursor.withBound bound).statement =
      ⟨cursor.statement.outcome, cursor.statement.cursor.withBound bound⟩ := by
  have changed := terminated_withBound bound
    (cursor.withBound cursor.semicolonIndex).statementBody.outcome
    ((cursor.withBound cursor.semicolonIndex).statementBody.cursor.withBound cursor.bound)
  exact changed

/-- A statement is read from its segment alone, wherever the segment stands and whatever follows. -/
theorem statement_segment {cursor : Cursor} {segment later : List Token}
    (isSegment : IsSegment segment) (shape : cursor.rest = segment ++ later) :
    cursor.statement =
      ⟨(alone segment).outcome,
        ((alone segment).cursor.embed cursor.position later).withBound cursor.bound⟩ := by
  have placed : cursor =
      ((ofTokens segment).embed cursor.position later).withBound cursor.bound := by
    rcases cursor with ⟨position, rest, bound⟩
    simp only at shape
    simp [embed, ofTokens, withBound, shape]
  have closed : (ofTokens segment).Closed later := by
    rcases isSegment with ⟨body, semicolon, rfl, -, isSemicolon⟩
    exact .inr ⟨semicolon, by simp [ofTokens], isSemicolon⟩
  conv => lhs; rw [placed]
  rw [statement_withBound, statement_embed closed]
  rfl

/-- A statement that is read ends in a semicolon, and the cursor is behind it. -/
theorem exists_semicolon_of_statement {cursor : Cursor} {node : Node}
    (read : cursor.statement.outcome = .ok node) :
    ∃ taken semicolon rest, semicolon.kind = .semicolon ∧
      cursor.rest = taken ++ semicolon :: rest ∧
      cursor.statement.cursor = ⟨cursor.position + taken.length + 1, rest, cursor.bound⟩ := by
  obtain ⟨taken, restEq, positionEq⟩ :=
    leadsTo_statementBody (cursor.withBound cursor.semicolonIndex)
  rcases statement_eq_ok read with ⟨-, semicolon, rest, isSemicolon, shape, finish⟩
  refine ⟨taken, semicolon, rest, isSemicolon, ?_, ?_⟩
  · rw [← shape, ← restEq, rest_withBound]
  · rw [finish, positionEq, position_withBound]

/-- Tokens without a semicolon end before the first semicolon does. -/
theorem length_le_of_append_semicolon {body more taken later : List Token} {semicolon : Token}
    (clean : ∀ token ∈ body, token.kind ≠ .semicolon) (isSemicolon : semicolon.kind = .semicolon)
    (same : body ++ more = taken ++ semicolon :: later) : body.length ≤ taken.length := by
  rcases List.append_eq_append_iff.mp same with ⟨between, rfl, -⟩ | ⟨between, rfl, shape⟩
  · simp
  · cases between with
    | nil => simp
    | cons first between =>
        rcases List.cons.inj shape with ⟨rfl, -⟩
        exact absurd isSemicolon (clean semicolon (by simp))

/-- A segment that can be read as a statement is read to its end. -/
theorem alone_cursor {segment : List Token} {node : Node} (isSegment : IsSegment segment)
    (read : (alone segment).outcome = .ok node) :
    (alone segment).cursor = ⟨segment.length, [], segment.length⟩ := by
  obtain ⟨taken, semicolon, rest, isSemicolon, shape, finish⟩ :=
    exists_semicolon_of_statement read
  rcases isSegment with ⟨body, ending, rfl, clean, -⟩
  change body ++ [ending] = taken ++ semicolon :: rest at shape
  have reached := length_le_of_append_semicolon clean isSemicolon shape
  have counted := congrArg List.length shape
  simp only [List.length_append, List.length_cons, List.length_nil] at counted
  have ended : rest = [] := List.eq_nil_of_length_eq_zero (by omega)
  have placed : 0 + taken.length + 1 = (body ++ [ending]).length := by
    rw [shape, ended]
    simp
  subst ended
  change (alone (body ++ [ending])).cursor = _ at finish
  rw [finish]
  change (⟨0 + taken.length + 1, [], (body ++ [ending]).length⟩ : Cursor) = _
  rw [placed]

/-- Tokens without a semicolon are no statement. -/
theorem alone_of_unended {tokens : List Token}
    (unended : ∀ token ∈ tokens, token.kind ≠ .semicolon) :
    ∃ cause, (alone tokens).outcome = .error cause := by
  cases outcome : (alone tokens).outcome with
  | error cause => exact ⟨cause, rfl⟩
  | ok node =>
      obtain ⟨taken, semicolon, rest, isSemicolon, shape, -⟩ :=
        exists_semicolon_of_statement outcome
      have member : semicolon ∈ tokens := by
        change tokens = _ at shape
        rw [shape]
        simp
      exact absurd isSemicolon (unended semicolon member)

/-!
### The program

The loop over statements is the same loop over segments.  Behind a segment that is a statement the
cursor stands where a fresh one over the later segments would, moved by the length of the segment.
-/

theorem not_atEnd_of_isSegment {segment : List Token} (isSegment : IsSegment segment)
    (rest : List Token) : ¬ (ofTokens (segment ++ rest)).atEnd = true := by
  rcases isSegment with ⟨body, semicolon, rfl, -, -⟩
  simp [atEnd, ofTokens]

/-- A segment that is a statement is passed, and the program goes on behind it as if it started
there. -/
theorem program_append_of_ok {segment : List Token} {node : Node}
    (isSegment : IsSegment segment) (read : (alone segment).outcome = .ok node)
    (rest : List Token) :
    (ofTokens (segment ++ rest)).program =
      ((ofTokens rest).program.embed segment.length []).map (node :: ·) := by
  have behind : (ofTokens (segment ++ rest)).statement =
      ⟨.ok node, (ofTokens rest).embed segment.length []⟩ := by
    have shape : (ofTokens (segment ++ rest)).rest = segment ++ rest := rfl
    rw [statement_segment isSegment shape, read, alone_cursor isSegment read]
    simp [ofTokens, embed, withBound]
  rw [program_eq, if_neg (not_atEnd_of_isSegment isSegment rest), behind]
  simp only [program_embed]

/-- A segment that is no statement stops the program where the segment alone stops. -/
theorem program_append_of_error {segment : List Token} {cause : GrammarError}
    (isSegment : IsSegment segment) (failed : (alone segment).outcome = .error cause)
    (rest : List Token) :
    (ofTokens (segment ++ rest)).program.outcome = .error cause ∧
      (ofTokens (segment ++ rest)).program.cursor.position = (alone segment).cursor.position := by
  have shape : (ofTokens (segment ++ rest)).rest = segment ++ rest := rfl
  have stopped := statement_segment isSegment shape
  rw [program_eq, if_neg (not_atEnd_of_isSegment isSegment rest), stopped, failed]
  exact ⟨rfl, Nat.zero_add _⟩

/-- Tokens without a semicolon are an empty program, or none at all. -/
theorem program_of_unended {tokens : List Token} (filled : tokens ≠ []) :
    ∀ cause, (alone tokens).outcome = .error cause →
      (ofTokens tokens).program = ⟨.error cause, (alone tokens).cursor⟩ := by
  intro cause failed
  have unended : ¬ (ofTokens tokens).atEnd = true := by
    simpa [atEnd, ofTokens] using filled
  rw [program_eq, if_neg unended]
  change (ofTokens tokens).statement.outcome = _ at failed
  rw [failed]
  rfl

theorem program_nil : (ofTokens []).program = ⟨.ok [], ofTokens []⟩ := by
  rw [program_eq]
  rfl

/-- A program is read if its segments are statements and there is nothing behind them. -/
theorem program_eq_ok_iff (tokens : List Token) (nodes : List Node) :
    (ofTokens tokens).program.outcome = .ok nodes ↔
      remainder tokens = [] ∧
        List.Forall₂ (fun segment node => (alone segment).outcome = .ok node)
          (segments tokens) nodes := by
  induction tokens using segment_induction generalizing nodes with
  | unended tokens clean =>
      rw [segments_of_unended clean, remainder_of_unended clean, List.forall₂_nil_left_iff]
      by_cases empty : tokens = []
      · subst empty
        simp [program_nil, eq_comm]
      · rcases alone_of_unended clean with ⟨cause, failed⟩
        simp [program_of_unended empty cause failed, empty]
  | append segment rest isSegment ih =>
      rw [segments_append isSegment, remainder_append isSegment, List.forall₂_cons_left_iff]
      cases outcome : (alone segment).outcome with
      | error cause =>
          rw [(program_append_of_error isSegment outcome rest).1]
          simp
      | ok node =>
          rw [program_append_of_ok isSegment outcome, Reply.outcome_map_eq_ok_iff]
          simp only [Reply.embed, ih, Except.ok.injEq]
          constructor
          · rintro ⟨read, ⟨complete, reads⟩, rfl⟩
            exact ⟨complete, node, read, rfl, reads, rfl⟩
          · rintro ⟨complete, _, read, rfl, reads, rfl⟩
            exact ⟨read, ⟨complete, reads⟩, rfl⟩

/-- A program that is read is read to the last token. -/
theorem program_position_of_ok (tokens : List Token) (nodes : List Node)
    (read : (ofTokens tokens).program.outcome = .ok nodes) :
    (ofTokens tokens).program.cursor.position = tokens.length := by
  induction tokens using segment_induction generalizing nodes with
  | unended tokens clean =>
      by_cases empty : tokens = []
      · subst empty
        rw [program_nil]
        rfl
      · rcases alone_of_unended clean with ⟨cause, failed⟩
        rw [program_of_unended empty cause failed] at read
        cases read
  | append segment rest isSegment ih =>
      cases outcome : (alone segment).outcome with
      | error cause =>
          rw [(program_append_of_error isSegment outcome rest).1] at read
          cases read
      | ok node =>
          rw [program_append_of_ok isSegment outcome, Reply.outcome_map_eq_ok_iff] at read
          rcases read with ⟨later, readLater, -⟩
          rw [program_append_of_ok isSegment outcome, List.length_append]
          exact congrArg (segment.length + ·) (ih later readLater)

/-- A failure behind segments that are statements is the failure of the program, moved by the length
of those segments. -/
theorem program_flatten_append_of_error {before : List (List Token)} {rest : List Token}
    {cause : GrammarError} (areSegments : ∀ segment ∈ before, IsSegment segment)
    (read : ∀ segment ∈ before, ∃ node, (alone segment).outcome = .ok node)
    (failed : (ofTokens rest).program.outcome = .error cause) :
    (ofTokens (before.flatten ++ rest)).program.outcome = .error cause ∧
      (ofTokens (before.flatten ++ rest)).program.cursor.position =
        before.flatten.length + (ofTokens rest).program.cursor.position := by
  induction before with
  | nil => exact ⟨failed, (Nat.zero_add _).symm⟩
  | cons segment before ih =>
      rcases List.forall_mem_cons.mp areSegments with ⟨isSegment, areSegments⟩
      rcases List.forall_mem_cons.mp read with ⟨⟨node, readFirst⟩, readLater⟩
      obtain ⟨outcome, position⟩ := ih areSegments readLater
      rw [List.flatten_cons, List.append_assoc, program_append_of_ok isSegment readFirst]
      constructor
      · simp [Reply.embed, outcome, Except.map]
      · simp [Reply.embed, embed, position, Nat.add_assoc]

/-- A program is read segment by segment.  The tokens are cut behind each semicolon.  The program is
read exactly when nothing is left behind the last semicolon and each segment alone is a statement,
and the cursor is then behind the last token.  Otherwise the first segment that alone is no statement
gives the error and, counted from its start, the place, or else the tokens that are left do, which
are never a statement.  What follows a segment makes no difference to the statement that is read
from it, wherever it stands. -/
theorem program_reads_segmentwise (tokens : List Token) :
    let program := (ofTokens tokens).program
    ((segments tokens).flatten ++ remainder tokens = tokens ∧
      (∀ segment ∈ segments tokens, IsSegment segment) ∧
      (∀ token ∈ remainder tokens, token.kind ≠ .semicolon)) ∧
    (∀ nodes, program.outcome = .ok nodes ↔
      remainder tokens = [] ∧
        List.Forall₂ (fun segment node => (alone segment).outcome = .ok node)
          (segments tokens) nodes) ∧
    (∀ nodes, program.outcome = .ok nodes → program.cursor.position = tokens.length) ∧
    (∀ before failing after cause, segments tokens = before ++ failing :: after →
      (∀ segment ∈ before, ∃ node, (alone segment).outcome = .ok node) →
      (alone failing).outcome = .error cause →
        program.outcome = .error cause ∧
        program.cursor.position = before.flatten.length + (alone failing).cursor.position) ∧
    ((∀ segment ∈ segments tokens, ∃ node, (alone segment).outcome = .ok node) →
      remainder tokens ≠ [] →
        ∃ cause, (alone (remainder tokens)).outcome = .error cause ∧
          program.outcome = .error cause ∧
          program.cursor.position =
            (segments tokens).flatten.length + (alone (remainder tokens)).cursor.position) ∧
    (∀ (cursor : Cursor) segment later, cursor.rest = segment ++ later → IsSegment segment →
      cursor.statement.outcome = (alone segment).outcome ∧
      cursor.statement.cursor.position = cursor.position + (alone segment).cursor.position) := by
  intro program
  have areSegments : ∀ segment ∈ segments tokens, IsSegment segment := fun _ =>
    isSegment_of_mem_segments
  have joined := flatten_segments_append_remainder tokens
  have unended := remainder_unended tokens
  refine ⟨⟨joined, areSegments, unended⟩, program_eq_ok_iff tokens,
    program_position_of_ok tokens, ?_, ?_, ?_⟩
  · intro before failing after cause cut read failed
    have shape : tokens = before.flatten ++ (failing ++ (after.flatten ++ remainder tokens)) := by
      conv => lhs; rw [← joined, cut]
      simp
    rw [cut] at areSegments
    obtain ⟨areBefore, isFailing, -⟩ := List.forall_mem_append.mp areSegments |>.imp_right
      List.forall_mem_cons.mp
    obtain ⟨outcome, position⟩ :=
      program_append_of_error isFailing failed (after.flatten ++ remainder tokens)
    have whole := program_flatten_append_of_error areBefore read outcome
    rw [← shape, position] at whole
    exact whole
  · intro read left
    rcases alone_of_unended unended with ⟨cause, failed⟩
    have stopped := program_of_unended left cause failed
    have failedThere : (ofTokens (remainder tokens)).program.outcome = .error cause :=
      congrArg Reply.outcome stopped
    have whole := program_flatten_append_of_error areSegments read failedThere
    rw [joined, stopped] at whole
    exact ⟨cause, failed, whole⟩
  · intro cursor segment later shape isSegment
    rw [statement_segment isSegment shape]
    exact ⟨rfl, rfl⟩

end Cursor

end CLike
