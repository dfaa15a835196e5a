/-
Module: CLike.Proofs.Relocation
Layer: Proofs
Purpose: A reading gives the same result at any position and whatever tokens stand behind the ones
  that it can see.
Main exports: Cursor.embed, Reply.embed, Cursor.Seals, Cursor.statement_embed, Cursor.program_embed
-/
import CLike.Proofs.Sight

namespace CLike

/-- The same place in a longer list of tokens, with so many more tokens before it and some more
behind. -/
def Cursor.embed (before : Nat) (behind : List Token) (cursor : Cursor) : Cursor :=
  ⟨before + cursor.position, cursor.rest ++ behind, before + cursor.bound⟩

/-- The same reading in a longer list of tokens. -/
def Reply.embed {α : Type u} (before : Nat) (behind : List Token) (reply : Reply α) : Reply α :=
  ⟨reply.outcome, reply.cursor.embed before behind⟩

namespace Cursor

variable {before : Nat} {behind : List Token}

/-- Some more tokens stay out of sight: there are none, or the token on the bound is before them. -/
def Seals (behind : List Token) (cursor : Cursor) : Prop :=
  behind = [] ∨ cursor.bound < cursor.tokenCount

/-- A reading cannot break the seal. -/
theorem Seals.of_keeps {start finish : Cursor} (isSealed : start.Seals behind)
    (kept : start.Keeps finish) : finish.Seals behind := by
  unfold Seals at isSealed ⊢
  rw [kept.bound_eq, kept.forward.tokenCount_eq]
  exact isSealed

/-- The head of the rest does not change while the cursor stands before the bound. -/
theorem Seals.head?_append {cursor : Cursor} (isSealed : cursor.Seals behind)
    (inSight : cursor.position ≤ cursor.bound) :
    (cursor.rest ++ behind).head? = cursor.rest.head? := by
  rcases isSealed with rfl | inside
  · rw [List.append_nil]
  · have filled : cursor.rest ≠ [] := by
      intro empty
      simp only [tokenCount, empty, List.length_nil] at inside
      omega
    rcases List.exists_cons_of_ne_nil filled with ⟨token, more, shape⟩
    simp only [shape, List.cons_append, List.head?_cons]

theorem peek?_embed {cursor : Cursor} (isSealed : cursor.Seals behind) :
    (cursor.embed before behind).peek? = cursor.peek? := by
  simp only [peek?, embed, Nat.add_lt_add_iff_left]
  split
  · next inSight => exact isSealed.head?_append (Nat.le_of_lt inSight)
  · rfl

theorem advance_embed {cursor : Cursor} {token : Token} {rest : List Token}
    (shape : cursor.rest = token :: rest) :
    (cursor.embed before behind).advance = cursor.advance.embed before behind := by
  simp [advance, embed, shape, Nat.add_assoc]

theorem skip_embed {cursor : Cursor} (kind : Kind) (isSealed : cursor.Seals behind) :
    (cursor.embed before behind).skip kind = (cursor.skip kind).embed before behind := by
  unfold skip
  rw [peek?_embed isSealed]
  split
  · next present =>
      rcases exists_of_any_peek? present with ⟨token, rest, -, -, shape⟩
      exact advance_embed shape
  · rfl

theorem visible_embed {cursor : Cursor} (isSealed : cursor.Seals behind) :
    (cursor.embed before behind).visible = cursor.visible := by
  unfold visible
  simp only [embed, Nat.add_sub_add_left]
  rcases isSealed with rfl | inside
  · rw [List.append_nil]
  · apply List.take_append_of_le_length
    simp only [tokenCount] at inside
    omega

/-!
### Phrases and declarations
-/

/-- A run is the same in a longer list of tokens.  It may come to a stop on the bound, and the token
there decides about the error, so the bound has to stand on one of the run's own tokens. -/
theorem run_embed {bound position : Nat} (state : Phrase.State) (tokens : List Token)
    (isSealed : behind = [] ∨ position ≤ bound ∧ bound < position + tokens.length) :
    state.run (before + bound) (before + position) (tokens ++ behind) =
      (state.run bound position tokens).embed before behind := by
  induction tokens generalizing state position with
  | nil =>
      rcases isSealed with rfl | ⟨started, inside⟩
      · rfl
      · simp only [List.length_nil] at inside
        omega
  | cons token rest ih =>
      have later : position < bound →
          behind = [] ∨ position + 1 ≤ bound ∧ bound < position + 1 + rest.length := by
        intro inSight
        refine isSealed.imp_right fun ⟨_, inside⟩ => ⟨inSight, ?_⟩
        rw [List.length_cons] at inside
        omega
      rw [List.cons_append, Phrase.State.run, Phrase.State.run]
      simp only [Nat.add_lt_add_iff_left]
      split
      · next inSight =>
          split
          · rw [Nat.add_assoc]
            exact ih _ (later inSight)
          · rfl
          · rfl
      · rfl

/-- One round of the loop over parameters. -/
theorem parameters_eq (expecting : Bool) (cursor : Cursor) :
    cursor.parameters expecting =
      match cursor.peek? with
      | none => ⟨.error .unclosedFunctionDeclaration, cursor⟩
      | some token =>
        if token.kind = .rightParen then ⟨.ok [], cursor.advance⟩
        else if token.kind = .comma then cursor.advance.parameters true
        else if !expecting then ⟨.error .adjacentArguments, cursor⟩
        else if token.kind = .intType ∨ token.kind = .charType then
          ((cursor.advance.skip .identifier).parameters false).map (token :: ·)
        else ⟨.error .parameterWithoutType, cursor⟩ := by
  conv => lhs; unfold parameters
  split <;> simp [*]

theorem parameters_embed (expecting : Bool) (cursor : Cursor) (isSealed : cursor.Seals behind) :
    (cursor.embed before behind).parameters expecting =
      (cursor.parameters expecting).embed before behind := by
  fun_induction parameters expecting cursor with
  | case1 expecting cursor unseen =>
      rw [parameters_eq, peek?_embed isSealed, unseen]
      rfl
  | case2 expecting cursor token seen closing =>
      rcases peek?_eq_some_iff.mp seen with ⟨-, rest, shape⟩
      rw [parameters_eq, peek?_embed isSealed, seen]
      simp only [if_pos closing, advance_embed shape]
      rfl
  | case3 expecting cursor token seen notClosing comma ih =>
      rcases peek?_eq_some_iff.mp seen with ⟨-, rest, shape⟩
      rw [parameters_eq, peek?_embed isSealed, seen]
      simp only [if_neg notClosing, if_pos comma, advance_embed shape]
      exact ih (isSealed.of_keeps (.advance seen))
  | case4 expecting cursor token seen notClosing notComma adjacent =>
      rw [parameters_eq, peek?_embed isSealed, seen]
      simp only [if_neg notClosing, if_neg notComma, if_pos adjacent]
      rfl
  | case5 expecting cursor token seen notClosing notComma expected typed ih =>
      rcases peek?_eq_some_iff.mp seen with ⟨-, rest, shape⟩
      have afterType : cursor.advance.Seals behind := isSealed.of_keeps (.advance seen)
      rw [parameters_eq, peek?_embed isSealed, seen]
      simp only [if_neg notClosing, if_neg notComma, if_neg expected, if_pos typed,
        advance_embed shape, skip_embed _ afterType, ih (afterType.of_keeps (.skip _ _))]
      rfl
  | case6 expecting cursor token seen notClosing notComma expected untyped =>
      rw [parameters_eq, peek?_embed isSealed, seen]
      simp only [if_neg notClosing, if_neg notComma, if_neg expected, if_neg untyped]
      rfl

theorem functionDeclaration_embed (returnType name : Token) {cursor : Cursor}
    (isSealed : cursor.Seals behind) :
    (cursor.embed before behind).functionDeclaration returnType name =
      (cursor.functionDeclaration returnType name).embed before behind := by
  unfold functionDeclaration
  rw [peek?_embed isSealed]
  split
  · next present =>
      rcases exists_of_any_peek? present with ⟨token, rest, -, seen, shape⟩
      rw [advance_embed shape, parameters_embed _ _ (isSealed.of_keeps (.advance seen))]
      rfl
  · rfl

theorem declaration_embed {type : Token} {cursor : Cursor} (isSealed : cursor.Seals behind)
    (fenced : cursor.Fenced) (seen : cursor.peek? = some type) :
    (cursor.embed before behind).declaration type =
      (cursor.declaration type).embed before behind := by
  rcases peek?_eq_some_iff.mp seen with ⟨inSight, rest, shape⟩
  have afterType : cursor.advance.Seals behind := isSealed.of_keeps (.advance seen)
  have sameName : ((cursor.embed before behind).advance.rest).head? =
      cursor.advance.rest.head? := by
    rw [advance_embed shape]
    apply afterType.head?_append
    rw [advance_cons shape]
    exact inSight
  unfold declaration
  rw [sameName, visible_embed isSealed]
  split
  · rfl
  · next name found =>
      split
      · rfl
      · next isName =>
          have other : name.kind ≠ .semicolon := by
            rw [Decidable.not_not.mp isName]
            decide
          have nameSeen := fenced.peek?_advance seen found other
          rcases peek?_eq_some_iff.mp nameSeen with ⟨-, more, nameShape⟩
          rw [advance_embed shape, advance_embed nameShape,
            functionDeclaration_embed _ _ (afterType.of_keeps (.advance nameSeen))]
          split
          · rfl
          · rfl

theorem expressionStatement_embed {cursor : Cursor} (isSealed : cursor.Seals behind)
    (started : cursor.position ≤ cursor.bound) :
    (cursor.embed before behind).expressionStatement =
      cursor.expressionStatement.embed before behind := by
  have sameRun : (cursor.embed before behind).expression =
      cursor.expression.embed before behind :=
    run_embed _ cursor.rest (isSealed.imp_right fun inside => ⟨started, inside⟩)
  rcases cursor.leadsTo_expression with ⟨taken, restEq, positionEq⟩
  have sameSpan : (cursor.rest ++ behind).take
      (before + cursor.expression.cursor.position - (before + cursor.position)) =
        cursor.rest.take (cursor.expression.cursor.position - cursor.position) := by
    rw [Nat.add_sub_add_left, positionEq, Nat.add_sub_cancel_left]
    apply List.take_append_of_le_length
    rw [restEq, List.length_append]
    exact Nat.le_add_right ..
  unfold expressionStatement
  rw [sameRun]
  simp only [Reply.embed, embed, sameSpan]

theorem statementBody_embed {cursor : Cursor} (isSealed : cursor.Seals behind)
    (fenced : cursor.Fenced) :
    (cursor.embed before behind).statementBody = cursor.statementBody.embed before behind := by
  have started : cursor.position ≤ cursor.bound := by
    rw [fenced]
    exact cursor.position_le_semicolonIndex
  unfold statementBody
  rw [peek?_embed isSealed]
  split
  · next token seen =>
      split
      · exact declaration_embed isSealed fenced seen
      · exact expressionStatement_embed isSealed started
  · exact expressionStatement_embed isSealed started

/-!
### Statements and programs

A statement is sealed by its own semicolon.
-/

/-- Whether a statement that starts here has its semicolon, so that more tokens behind make no
difference. -/
def Closed (behind : List Token) (cursor : Cursor) : Prop :=
  behind = [] ∨ ∃ token ∈ cursor.rest, token.kind = .semicolon

/-- A semicolon that is there is found before the end of the tokens. -/
theorem semicolonIndex_lt {cursor : Cursor}
    (present : ∃ token ∈ cursor.rest, token.kind = .semicolon) :
    cursor.semicolonIndex < cursor.tokenCount := by
  rcases present with ⟨token, member, isSemicolon⟩
  apply Nat.add_lt_add_left
  exact List.findIdx_lt_length_of_exists ⟨token, member, by simp [isSemicolon]⟩

theorem semicolonIndex_embed {cursor : Cursor} (closed : cursor.Closed behind) :
    (cursor.embed before behind).semicolonIndex = before + cursor.semicolonIndex := by
  unfold semicolonIndex
  rw [← Nat.add_assoc]
  apply congrArg (before + cursor.position + ·)
  rcases closed with rfl | present
  · simp [embed]
  · have found := semicolonIndex_lt present
    simp only [semicolonIndex, tokenCount, Nat.add_lt_add_iff_left] at found
    simp [embed, List.findIdx_append, found]

theorem terminated_embed {reply : Reply Node} (shown : behind = [] ∨ reply.cursor.rest ≠ []) :
    terminated (reply.embed before behind) = (terminated reply).embed before behind := by
  unfold terminated
  cases outcome : reply.outcome with
  | error cause => simp only [Reply.embed, outcome]
  | ok node =>
      cases shape : reply.cursor.rest with
      | nil =>
          rcases shown with rfl | filled
          · simp [Reply.embed, embed, outcome, shape]
          · exact absurd shape filled
      | cons token rest =>
          simp only [Reply.embed, outcome, embed, shape, List.cons_append]
          split
          · simp [advance, shape, Nat.add_assoc]
          · simp only [shape, List.cons_append]

/-- A statement that has its semicolon is read in the same way at any position and whatever
follows. -/
theorem statement_embed {cursor : Cursor} (closed : cursor.Closed behind) :
    (cursor.embed before behind).statement = cursor.statement.embed before behind := by
  have isSealed : (cursor.withBound cursor.semicolonIndex).Seals behind :=
    closed.imp_right semicolonIndex_lt
  have sameStart : (cursor.embed before behind).withBound
      (cursor.embed before behind).semicolonIndex =
        (cursor.withBound cursor.semicolonIndex).embed before behind := by
    rw [semicolonIndex_embed closed]
    rfl
  have shown : behind = [] ∨
      (cursor.withBound cursor.semicolonIndex).statementBody.cursor.rest ≠ [] := by
    refine closed.imp_right fun present empty => ?_
    have stopped := position_statementBody_le cursor
    have found := semicolonIndex_lt present
    have counted :=
      (Keeps.statementBody cursor.fenced_withBound).forward.tokenCount_eq
    simp only [tokenCount, empty, List.length_nil, rest_withBound, position_withBound]
      at counted found
    omega
  unfold statement
  rw [sameStart, statementBody_embed isSealed cursor.fenced_withBound]
  generalize (cursor.withBound cursor.semicolonIndex).statementBody = body at shown ⊢
  have shownAgain : behind = [] ∨
      (⟨body.outcome, body.cursor.withBound cursor.bound⟩ : Reply Node).cursor.rest ≠ [] := shown
  exact terminated_embed shownAgain

/-- One round of the loop over statements. -/
theorem program_eq (cursor : Cursor) :
    cursor.program =
      if cursor.atEnd then ⟨.ok [], cursor⟩
      else
        match cursor.statement.outcome with
        | .error cause => ⟨.error cause, cursor.statement.cursor⟩
        | .ok node => cursor.statement.cursor.program.map (node :: ·) := by
  conv => lhs; unfold program
  split
  · rfl
  · dsimp only
    split <;> simp [*]

/-- A program is read in the same way at any position. -/
theorem program_embed (cursor : Cursor) :
    (cursor.embed before []).program = cursor.program.embed before [] := by
  fun_induction program cursor with
  | case1 cursor ended =>
      have endedToo : (cursor.embed before []).atEnd = true := by
        simpa [atEnd, embed] using ended
      rw [program_eq, if_pos endedToo]
      rfl
  | case2 cursor unended reply cause failed =>
      have unendedToo : ¬ (cursor.embed before []).atEnd = true := by
        simpa [atEnd, embed] using unended
      rw [program_eq, if_neg unendedToo, statement_embed (.inl rfl)]
      simp only [Reply.embed, failed, reply]
  | case3 cursor unended reply node read ih =>
      have unendedToo : ¬ (cursor.embed before []).atEnd = true := by
        simpa [atEnd, embed] using unended
      rw [program_eq, if_neg unendedToo, statement_embed (.inl rfl)]
      simp only [Reply.embed, read, reply, ih]
      rfl

end Cursor

end CLike
