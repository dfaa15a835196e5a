/-
Module: CLike.Proofs.Bounds
Layer: Proofs
Purpose: Where cursors stand among all the tokens, and where the sight of a phrase or a statement
  ends.
Main exports: StatementEnds, Cursor.Bounded, Cursor.Bounded.of_keeps, Cursor.Enclosed,
  Cursor.Settled.bounded, Cursor.Settled.enclosed, Cursor.Settled.behind_semicolon
-/
import CLike.Proofs.History

namespace CLike

/-- There is no token at the place, or it is a semicolon. -/
def StatementEnds (tokens : List Token) (place : Nat) : Prop :=
  place = tokens.length ∨ ∃ token, tokens[place]? = some token ∧ token.kind = .semicolon

theorem StatementEnds.le_length {tokens : List Token} {place : Nat}
    (ends : StatementEnds tokens place) : place ≤ tokens.length := by
  rcases ends with whole | ⟨semicolon, here, -⟩
  · exact Nat.le_of_eq whole
  · exact Nat.le_of_lt (List.getElem?_eq_some_iff.mp here).1

namespace Cursor

variable {tokens : List Token} {cursor : Cursor}

/-!
### Cursors among tokens

A phrase is read up to the end of the tokens or, in a statement, up to a semicolon.
-/

/-- The cursor stands in the tokens and not behind its bound, and at the bound the tokens end or a
semicolon stands. -/
structure Bounded (tokens : List Token) (cursor : Cursor) : Prop where
  rest_eq : cursor.rest = tokens.drop cursor.position
  position_le : cursor.position ≤ cursor.bound
  bound_ends : StatementEnds tokens cursor.bound

/-- Moreover the bound is the first semicolon behind the cursor, if there is one. -/
structure Enclosed (tokens : List Token) (cursor : Cursor) : Prop extends
    cursor.Bounded tokens where
  unended : ∀ index token, cursor.position ≤ index → index < cursor.bound →
    tokens[index]? = some token → token.kind ≠ .semicolon

namespace Bounded

/-- What a reading keeps, it keeps among the same tokens. -/
theorem of_keeps {finish : Cursor} (bounded : cursor.Bounded tokens) (kept : cursor.Keeps finish) :
    finish.Bounded tokens where
  rest_eq := kept.forward.rest_eq_drop bounded.rest_eq
  position_le := by
    rw [kept.bound_eq]
    exact kept.within bounded.position_le
  bound_ends := by
    rw [kept.bound_eq]
    exact bounded.bound_ends

theorem head?_eq (bounded : cursor.Bounded tokens) :
    cursor.rest.head? = tokens[cursor.position]? := by
  rw [bounded.rest_eq, List.head?_drop]

theorem getElem?_of_rest (bounded : cursor.Bounded tokens) {token : Token} {rest : List Token}
    (shape : cursor.rest = token :: rest) : tokens[cursor.position]? = some token := by
  rw [← bounded.head?_eq, shape]
  rfl

theorem getElem?_of_peek? (bounded : cursor.Bounded tokens) {token : Token}
    (seen : cursor.peek? = some token) : tokens[cursor.position]? = some token := by
  obtain ⟨-, rest, shape⟩ := peek?_eq_some_iff.mp seen
  exact bounded.getElem?_of_rest shape

/-- Where nothing is in sight, the cursor has come to its bound. -/
theorem ends_of_unseen (bounded : cursor.Bounded tokens) (unseen : cursor.peek? = none) :
    StatementEnds tokens cursor.position := by
  unfold peek? at unseen
  split at unseen
  · next inSight =>
      rw [bounded.head?_eq, List.getElem?_eq_none_iff] at unseen
      exact absurd (Nat.lt_of_lt_of_le inSight bounded.bound_ends.le_length) (Nat.not_lt.mpr unseen)
  · next beyond =>
      have same : cursor.position = cursor.bound :=
        Nat.le_antisymm bounded.position_le (Nat.le_of_not_lt beyond)
      rw [same]
      exact bounded.bound_ends

/-- Where the tokens are at an end, the cursor is behind the last one. -/
theorem position_of_nil (bounded : cursor.Bounded tokens) (ended : cursor.rest = []) :
    cursor.position = tokens.length := by
  have reached := bounded.rest_eq
  rw [ended, eq_comm, List.drop_eq_nil_iff] at reached
  exact Nat.le_antisymm (Nat.le_trans bounded.position_le bounded.bound_ends.le_length) reached

/-- The token behind one in sight is in sight too, unless it is the semicolon at the bound. -/
theorem peek?_advance (bounded : cursor.Bounded tokens) {token next : Token}
    (seen : cursor.peek? = some token) (follows : tokens[cursor.position + 1]? = some next)
    (other : next.kind ≠ .semicolon) : cursor.advance.peek? = some next := by
  have behind := bounded.of_keeps (.advance seen)
  obtain ⟨inSight, rest, shape⟩ := peek?_eq_some_iff.mp seen
  have moved : cursor.advance.position = cursor.position + 1 := by rw [advance_cons shape]
  cases found : cursor.advance.peek? with
  | some token =>
      have here := behind.getElem?_of_peek? found
      rw [moved, follows] at here
      exact here.symm
  | none =>
      have ends := behind.ends_of_unseen found
      rw [moved] at ends
      rcases ends with whole | ⟨semicolon, here, isSemicolon⟩
      · have inside := (List.getElem?_eq_some_iff.mp follows).1
        omega
      · rw [follows] at here
        exact absurd (Option.some.inj here ▸ isSemicolon) other

/-- What is in sight stands between the cursor and its bound. -/
theorem exists_of_visible (bounded : cursor.Bounded tokens) {kind : Kind}
    (present : cursor.visible.any (·.kind == kind) = true) :
    ∃ index token, cursor.position ≤ index ∧ index < cursor.bound ∧
      tokens[index]? = some token ∧ token.kind = kind := by
  obtain ⟨token, member, isKind⟩ := List.any_eq_true.mp present
  obtain ⟨offset, here⟩ := List.mem_iff_getElem?.mp member
  rw [visible, List.getElem?_take, bounded.rest_eq, List.getElem?_drop] at here
  split at here
  · exact ⟨cursor.position + offset, token, by omega, by omega, here, eq_of_beq isKind⟩
  · cases here

end Bounded

namespace Enclosed

theorem of_keeps {finish : Cursor} (enclosed : cursor.Enclosed tokens)
    (kept : cursor.Keeps finish) : finish.Enclosed tokens where
  toBounded := enclosed.toBounded.of_keeps kept
  unended index token behind before here := by
    obtain ⟨taken, -, moved⟩ := kept.forward
    rw [kept.bound_eq] at before
    exact enclosed.unended index token (by omega) before here

theorem kind_ne_semicolon (enclosed : cursor.Enclosed tokens) {token : Token}
    (seen : cursor.peek? = some token) : token.kind ≠ .semicolon :=
  enclosed.unended cursor.position token (Nat.le_refl _) (peek?_eq_some_iff.mp seen).1
    (enclosed.getElem?_of_peek? seen)

end Enclosed

/-- Between two calls the bound is the end of the tokens. -/
theorem Settled.bounded (settled : cursor.Settled tokens) : cursor.Bounded tokens where
  rest_eq := settled.rest_eq
  position_le := by
    rw [settled.bound_eq]
    exact settled.position_le
  bound_ends := .inl settled.bound_eq

/-- A statement sets its bound to the first semicolon. -/
theorem Settled.enclosed (settled : cursor.Settled tokens) :
    (cursor.withBound cursor.semicolonIndex).Enclosed tokens where
  rest_eq := settled.rest_eq
  position_le := cursor.position_le_semicolonIndex
  bound_ends := by
    have counted := congrArg List.length settled.rest_eq
    have inside := settled.position_le
    rw [List.length_drop] at counted
    by_cases present : cursor.rest.findIdx (·.kind == .semicolon) < cursor.rest.length
    · refine .inr ⟨_, ?_, eq_of_beq (List.findIdx_getElem (w := present))⟩
      have found := List.getElem?_eq_getElem present
      conv at found => lhs; rw [settled.rest_eq]
      rw [List.getElem?_drop, ← settled.rest_eq] at found
      exact found
    · have absent := Nat.le_antisymm List.findIdx_le_length (Nat.le_of_not_lt present)
      refine .inl ?_
      change cursor.position + cursor.rest.findIdx (·.kind == .semicolon) = tokens.length
      omega
  unended index token behind before here := by
    change index < cursor.position + cursor.rest.findIdx (·.kind == .semicolon) at before
    obtain ⟨offset, rfl⟩ := Nat.exists_eq_add_of_le behind
    have earlier := Nat.lt_of_add_lt_add_left before
    rw [position_withBound, ← List.getElem?_drop, ← settled.rest_eq] at here
    obtain ⟨inside, rfl⟩ := List.getElem?_eq_some_iff.mp here
    exact ne_of_beq_false (List.not_of_lt_findIdx earlier)

/-- A statement that was read ends behind its start, with a semicolon. -/
theorem Settled.behind_semicolon (settled : cursor.Settled tokens) {node : Node}
    (read : cursor.statement.outcome = .ok node) :
    cursor.position < cursor.statement.cursor.position ∧
      ∃ semicolon, tokens[cursor.statement.cursor.position - 1]? = some semicolon ∧
        semicolon.kind = .semicolon := by
  obtain ⟨-, semicolon, rest, isSemicolon, shape, moved⟩ := statement_eq_ok read
  have body := settled.enclosed.of_keeps (.statementBody cursor.fenced_withBound)
  obtain ⟨taken, -, placed⟩ :=
    leadsTo_statementBody (cursor.withBound cursor.semicolonIndex)
  rw [position_withBound] at placed
  rw [moved]
  constructor
  · simp only [placed]
    omega
  · exact ⟨semicolon, body.getElem?_of_rest shape, isSemicolon⟩

/-- Behind a body that was read, a semicolon can be missing. -/
theorem terminated_error {reply : Reply Node} {cause : GrammarError}
    (failed : (terminated reply).outcome = .error cause) :
    (terminated reply).cursor = reply.cursor ∧
      (reply.outcome = .error cause ∨
        cause = .missingSemicolon ∧
          ∀ token ∈ reply.cursor.rest.head?, token.kind ≠ .semicolon) := by
  obtain ⟨outcome, stop⟩ := reply
  cases outcome with
  | error other => exact ⟨rfl, .inl failed⟩
  | ok node =>
      unfold terminated at failed ⊢
      cases shape : stop.rest with
      | nil =>
          simp only [shape] at failed ⊢
          cases failed
          refine ⟨trivial, .inr ⟨rfl, ?_⟩⟩
          rintro next ⟨⟩
      | cons token rest =>
          simp only [shape] at failed ⊢
          split at failed
          · cases failed
          · next noSemicolon =>
              cases failed
              rw [if_neg noSemicolon]
              refine ⟨rfl, .inr ⟨rfl, ?_⟩⟩
              rintro next ⟨⟩
              exact noSemicolon

end Cursor

end CLike
