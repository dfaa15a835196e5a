/-
Module: CLike.Proofs.Sight
Layer: Proofs
Purpose: Readings keep to the tokens in sight: they move forward, never pass the bound and give it
  back as they found it.
Main exports: Cursor.peek?_eq_some_iff, Cursor.take_passed, Cursor.Keeps, Cursor.Keeps.run,
  Cursor.Keeps.declaration, Cursor.Keeps.statementBody, Cursor.statement_eq_ok
-/
import CLike.Statement

namespace CLike

/-- A result that is changed afterwards is there when it was there before. -/
theorem Reply.outcome_map_eq_ok_iff {α β : Type} {change : α → β} {reply : Reply α} {result : β} :
    (reply.map change).outcome = .ok result ↔
      ∃ found, reply.outcome = .ok found ∧ change found = result := by
  rcases reply with ⟨outcome, cursor⟩
  cases outcome with
  | error cause => simp [Reply.map, Except.map]
  | ok found => simp [Reply.map, Except.map]

/-- A result that is changed afterwards is missing for the same reason as before. -/
theorem Reply.outcome_map_eq_error_iff {α β : Type} {change : α → β} {reply : Reply α}
    {cause : GrammarError} :
    (reply.map change).outcome = .error cause ↔ reply.outcome = .error cause := by
  rcases reply with ⟨outcome, cursor⟩
  cases outcome with
  | error other => simp [Reply.map, Except.map]
  | ok found => simp [Reply.map, Except.map]

namespace Cursor

/-- A token is in sight when the cursor stands on it, before the bound. -/
theorem peek?_eq_some_iff {cursor : Cursor} {token : Token} :
    cursor.peek? = some token ↔
      cursor.position < cursor.bound ∧ ∃ rest, cursor.rest = token :: rest := by
  unfold peek?
  split
  · next inSight => simp [inSight, List.head?_eq_some_iff]
  · next outOfSight => simp [outOfSight]

/-- The token that a look ahead asks for is there. -/
theorem exists_of_any_peek? {cursor : Cursor} {kind : Kind}
    (present : cursor.peek?.any (·.kind == kind) = true) :
    ∃ token rest, token.kind = kind ∧ cursor.peek? = some token ∧ cursor.rest = token :: rest := by
  rcases (Option.any_eq_true ..).mp present with ⟨token, seen, isKind⟩
  rcases peek?_eq_some_iff.mp seen with ⟨-, rest, shape⟩
  exact ⟨token, rest, eq_of_beq isKind, seen, shape⟩

theorem advance_cons {cursor : Cursor} {token : Token} {rest : List Token}
    (shape : cursor.rest = token :: rest) :
    cursor.advance = ⟨cursor.position + 1, rest, cursor.bound⟩ := by
  simp [advance, shape]

theorem skip_of_present {cursor : Cursor} {kind : Kind} {token : Token} {rest : List Token}
    (inSight : cursor.position < cursor.bound) (shape : cursor.rest = token :: rest)
    (isKind : token.kind = kind) :
    cursor.skip kind = ⟨cursor.position + 1, rest, cursor.bound⟩ := by
  have seen : cursor.peek? = some token := peek?_eq_some_iff.mpr ⟨inSight, rest, shape⟩
  simp [skip, seen, isKind, advance_cons shape]

theorem skip_of_absent {cursor : Cursor} {kind : Kind}
    (absent : ∀ token ∈ cursor.rest.head?, token.kind ≠ kind) : cursor.skip kind = cursor := by
  unfold skip
  split
  · next present =>
      rcases exists_of_any_peek? present with ⟨token, rest, isKind, -, shape⟩
      exact absurd isKind (absent token (by simp [shape]))
  · rfl

/-- Skipping a class leaves the cursor where it is or passes one token of the class. -/
theorem skip_cases (kind : Kind) (cursor : Cursor) :
    cursor.skip kind = cursor ∨
      ∃ token, token.kind = kind ∧ cursor.rest = token :: (cursor.skip kind).rest := by
  unfold skip
  split
  · next present =>
      rcases exists_of_any_peek? present with ⟨token, rest, isKind, -, shape⟩
      refine .inr ⟨token, isKind, ?_⟩
      rw [advance_cons shape, shape]
  · exact .inl rfl

@[simp] theorem position_withBound (bound : Nat) (cursor : Cursor) :
    (cursor.withBound bound).position = cursor.position := rfl

@[simp] theorem rest_withBound (bound : Nat) (cursor : Cursor) :
    (cursor.withBound bound).rest = cursor.rest := rfl

theorem position_le_semicolonIndex (cursor : Cursor) :
    cursor.position ≤ cursor.semicolonIndex := Nat.le_add_right ..

/-- Moving forward neither loses nor gains tokens. -/
theorem LeadsTo.tokenCount_eq {start finish : Cursor} (forward : start.LeadsTo finish) :
    finish.tokenCount = start.tokenCount := by
  rcases forward with ⟨taken, rest, position⟩
  simp [tokenCount, rest, position, Nat.add_assoc]

/-- Moving forward through some tokens, the rest is what lies behind the position. -/
theorem LeadsTo.rest_eq_drop {tokens : List Token} {start finish : Cursor}
    (forward : start.LeadsTo finish) (placed : start.rest = tokens.drop start.position) :
    finish.rest = tokens.drop finish.position := by
  rcases forward with ⟨taken, restEq, positionEq⟩
  rw [positionEq, ← List.drop_drop, ← placed, restEq, List.drop_left]

/-- The tokens that were passed are those from the one position to the other. -/
theorem take_passed {taken : List Token} {start finish : Cursor}
    (shape : start.rest = taken ++ finish.rest)
    (moved : finish.position = start.position + taken.length) :
    start.rest.take (finish.position - start.position) = taken := by
  rw [moved, Nat.add_sub_cancel_left, shape, List.take_left]

/-!
### What a reading keeps

Every reading moves forward and leaves the bound alone, and it passes no token that it cannot see.
The three facts are carried together, because a reading that is made of others inherits all three.
-/

/-- The second cursor is reached from the first one by passing tokens in sight only. -/
structure Keeps (start finish : Cursor) : Prop where
  forward : start.LeadsTo finish
  bound_eq : finish.bound = start.bound
  within : start.position ≤ start.bound → finish.position ≤ start.bound

namespace Keeps

theorem refl (cursor : Cursor) : cursor.Keeps cursor := ⟨.refl cursor, rfl, id⟩

theorem trans {start middle finish : Cursor} (first : start.Keeps middle)
    (second : middle.Keeps finish) : start.Keeps finish where
  forward := first.forward.trans second.forward
  bound_eq := second.bound_eq.trans first.bound_eq
  within inside := by
    have halfway := first.within inside
    rw [← first.bound_eq] at halfway ⊢
    exact second.within halfway

/-- Passing a token in sight. -/
theorem advance {cursor : Cursor} {token : Token} (seen : cursor.peek? = some token) :
    cursor.Keeps cursor.advance := by
  rcases peek?_eq_some_iff.mp seen with ⟨inSight, rest, shape⟩
  constructor
  · exact cursor.leadsTo_advance
  · rw [advance_cons shape]
  · intro _
    rw [advance_cons shape]
    exact inSight

theorem skip (kind : Kind) (cursor : Cursor) : cursor.Keeps (cursor.skip kind) := by
  unfold Cursor.skip
  split
  · next present =>
      rcases exists_of_any_peek? present with ⟨token, rest, -, seen, -⟩
      exact .advance seen
  · exact .refl cursor

/-- A run of a phrase keeps to the tokens in sight, from whatever state it starts. -/
theorem run (bound : Nat) (state : Phrase.State) (position : Nat) (tokens : List Token) :
    (⟨position, tokens, bound⟩ : Cursor).Keeps (state.run bound position tokens).cursor := by
  induction tokens generalizing state position with
  | nil => exact .refl _
  | cons token rest ih =>
      rw [Phrase.State.run]
      split
      · next inSight =>
          have passed : (⟨position, token :: rest, bound⟩ : Cursor).Keeps
              ⟨position + 1, rest, bound⟩ :=
            .advance (peek?_eq_some_iff.mpr ⟨inSight, rest, rfl⟩)
          split
          · next next _ => exact passed.trans (ih next (position + 1))
          · exact .refl _
          · exact .refl _
      · exact .refl _

theorem parameters (expecting : Bool) (cursor : Cursor) :
    cursor.Keeps (cursor.parameters expecting).cursor := by
  fun_induction Cursor.parameters expecting cursor with
  | case1 => exact .refl _
  | case2 _ cursor token seen => exact .advance seen
  | case3 _ cursor token seen _ _ ih => exact (advance seen).trans ih
  | case4 => exact .refl _
  | case5 _ cursor token seen _ _ _ _ ih => exact ((advance seen).trans (skip _ _)).trans ih
  | case6 => exact .refl _

theorem functionDeclaration (returnType name : Token) (cursor : Cursor) :
    cursor.Keeps (cursor.functionDeclaration returnType name).cursor := by
  unfold Cursor.functionDeclaration
  split
  · next present =>
      rcases exists_of_any_peek? present with ⟨token, rest, -, seen, -⟩
      exact (advance seen).trans (parameters _ _)
  · exact .refl _

end Keeps

/-!
### Fenced cursors

The name of a declaration is looked up whether it is in sight or not.  Passing it is harmless all
the same, because the bound of a statement is a semicolon and a name is none.
-/

/-- The bound is the first semicolon, or the end of the tokens if there is none. -/
def Fenced (cursor : Cursor) : Prop := cursor.bound = cursor.semicolonIndex

theorem fenced_withBound (cursor : Cursor) :
    (cursor.withBound cursor.semicolonIndex).Fenced := rfl

/-- In sight of a fence there is no semicolon, so the token behind one in sight is in sight too,
unless it is a semicolon itself. -/
theorem Fenced.peek?_advance {cursor : Cursor} {token next : Token} (fenced : cursor.Fenced)
    (seen : cursor.peek? = some token) (follows : cursor.advance.rest.head? = some next)
    (other : next.kind ≠ .semicolon) : cursor.advance.peek? = some next := by
  rcases peek?_eq_some_iff.mp seen with ⟨inSight, rest, shape⟩
  rw [advance_cons shape] at follows ⊢
  rcases List.head?_eq_some_iff.mp follows with ⟨more, rfl⟩
  refine peek?_eq_some_iff.mpr ⟨?_, more, rfl⟩
  have unended : (next.kind == .semicolon) = false := beq_false_of_ne other
  simp only [Fenced, semicolonIndex, shape, List.findIdx_cons, unended] at fenced
  show cursor.position + 1 < cursor.bound
  -- Were the token in sight a semicolon, the fence would stand on it.
  cases ended : token.kind == .semicolon <;> simp only [ended, cond_true, cond_false] at fenced <;>
    omega

namespace Keeps

theorem declaration {cursor : Cursor} {type : Token} (fenced : cursor.Fenced)
    (seen : cursor.peek? = some type) : cursor.Keeps (cursor.declaration type).cursor := by
  unfold Cursor.declaration
  split
  · exact .refl cursor
  · next name found =>
      split
      · exact .refl cursor
      · next isName =>
          have other : name.kind ≠ .semicolon := by
            rw [Decidable.not_not.mp isName]
            decide
          have behindName : cursor.Keeps cursor.advance.advance :=
            (advance seen).trans (advance (fenced.peek?_advance seen found other))
          split
          · exact behindName.trans (functionDeclaration _ _ _)
          · exact behindName

theorem expressionStatement (cursor : Cursor) :
    cursor.Keeps cursor.expressionStatement.cursor :=
  run cursor.bound _ cursor.position cursor.rest

theorem statementBody {cursor : Cursor} (fenced : cursor.Fenced) :
    cursor.Keeps cursor.statementBody.cursor := by
  unfold Cursor.statementBody
  split
  · next token seen =>
      split
      · exact declaration fenced seen
      · exact expressionStatement cursor
  · exact expressionStatement cursor

end Keeps

/-- The body of a statement stops at the first semicolon at the latest. -/
theorem position_statementBody_le (cursor : Cursor) :
    (cursor.withBound cursor.semicolonIndex).statementBody.cursor.position ≤
      cursor.semicolonIndex :=
  (Keeps.statementBody cursor.fenced_withBound).within cursor.position_le_semicolonIndex

/-- A statement that is read has a body and, where that ends, a semicolon, which is passed. -/
theorem statement_eq_ok {cursor : Cursor} {node : Node}
    (read : cursor.statement.outcome = .ok node) :
    (cursor.withBound cursor.semicolonIndex).statementBody.outcome = .ok node ∧
      ∃ semicolon rest, semicolon.kind = .semicolon ∧
        (cursor.withBound cursor.semicolonIndex).statementBody.cursor.rest = semicolon :: rest ∧
        cursor.statement.cursor =
          ⟨(cursor.withBound cursor.semicolonIndex).statementBody.cursor.position + 1, rest,
            cursor.bound⟩ := by
  unfold statement terminated at read ⊢
  generalize (cursor.withBound cursor.semicolonIndex).statementBody = body at read ⊢
  rcases body with ⟨outcome, position, tokens, bound⟩
  cases outcome with
  | error cause => cases read
  | ok found =>
      cases tokens with
      | nil => cases read
      | cons semicolon rest =>
          simp only [withBound] at read ⊢
          split at read
          · next isSemicolon =>
              rw [if_pos isSemicolon]
              exact ⟨read, semicolon, rest, isSemicolon, rfl, rfl⟩
          · cases read

end Cursor

end CLike
