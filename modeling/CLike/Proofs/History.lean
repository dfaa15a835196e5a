/-
Module: CLike.Proofs.History
Layer: Proofs
Purpose: Earlier calls leave nothing behind but a position: whatever was asked of a session before,
  the next call gives what it gives at the start of the tokens that are left.
Main exports: Cursor.Settled, Session.after, Session.Reached, Session.perform_eq_fresh,
  Session.Reached.settled, Session.perform_forgets_history
-/
import CLike.Proofs.Segmentation
import CLike.Session

namespace CLike

namespace Cursor

/-!
### Settled cursors

Between two calls a cursor has only its position to tell.  The tokens that are left follow from it,
and the bound is behind all of them.
-/

/-- The cursor stands at its position in the given tokens and sees all that follow. -/
structure Settled (tokens : List Token) (cursor : Cursor) : Prop where
  position_le : cursor.position ≤ tokens.length
  rest_eq : cursor.rest = tokens.drop cursor.position
  bound_eq : cursor.bound = tokens.length

theorem settled_ofTokens (tokens : List Token) : (ofTokens tokens).Settled tokens :=
  ⟨Nat.zero_le _, rfl, rfl⟩

/-- A settled cursor is a fresh one over the tokens that are left, moved to its position. -/
theorem Settled.eq_embed {tokens : List Token} {cursor : Cursor} (settled : cursor.Settled tokens) :
    cursor = (ofTokens (tokens.drop cursor.position)).embed cursor.position [] := by
  rcases settled with ⟨inside, restEq, boundEq⟩
  rcases cursor with ⟨position, rest, bound⟩
  have counted : position + (tokens.length - position) = tokens.length :=
    Nat.add_sub_cancel' inside
  simp only at restEq boundEq
  simp [embed, ofTokens, counted, restEq, boundEq]

/-- Moving forward without a change of the bound leaves a cursor settled. -/
theorem Settled.of_leadsTo {tokens : List Token} {start finish : Cursor}
    (settled : start.Settled tokens) (forward : start.LeadsTo finish)
    (sameBound : finish.bound = start.bound) : finish.Settled tokens := by
  have behind := forward.rest_eq_drop settled.rest_eq
  rcases forward with ⟨taken, restEq, positionEq⟩
  constructor
  · have counted := congrArg List.length restEq
    have started := settled.position_le
    rw [settled.rest_eq, List.length_drop, List.length_append] at counted
    rw [positionEq]
    omega
  · exact behind
  · rw [sameBound, settled.bound_eq]

/-!
### What every reading does

Each of the five readings moves forward and gives the bound back, also when it fails, and each is
the same at any position.
-/

theorem leadsTo_terminated (reply : Reply Node) :
    reply.cursor.LeadsTo (terminated reply).cursor := by
  unfold terminated
  split
  · exact .refl _
  · exact .refl _
  · split
    · exact leadsTo_advance _
    · exact .refl _

theorem leadsTo_statement (cursor : Cursor) : cursor.LeadsTo cursor.statement.cursor := by
  have body : cursor.LeadsTo
      ((cursor.withBound cursor.semicolonIndex).statementBody.cursor.withBound cursor.bound) :=
    leadsTo_statementBody (cursor.withBound cursor.semicolonIndex)
  exact body.trans (leadsTo_terminated ⟨_, _⟩)

/-- The bound that a statement sets for itself is gone afterwards, on every way out. -/
theorem bound_statement (cursor : Cursor) : cursor.statement.cursor.bound = cursor.bound :=
  congrArg (·.cursor.bound) (statement_withBound cursor.bound cursor)

theorem leadsTo_program (cursor : Cursor) : cursor.LeadsTo cursor.program.cursor := by
  fun_induction program cursor with
  | case1 cursor => exact .refl cursor
  | case2 cursor => exact cursor.leadsTo_statement
  | case3 cursor unended reply node read ih => exact cursor.leadsTo_statement.trans ih

theorem bound_program (cursor : Cursor) : cursor.program.cursor.bound = cursor.bound := by
  fun_induction program cursor with
  | case1 cursor => rfl
  | case2 cursor => exact cursor.bound_statement
  | case3 cursor unended reply node read ih => exact ih.trans cursor.bound_statement

/-- A phrase is read in the same way at any position. -/
theorem read_embed (extent : Phrase.Extent) (before : Nat) (cursor : Cursor) :
    Phrase.read extent (cursor.embed before []) = (Phrase.read extent cursor).embed before [] :=
  run_embed _ cursor.rest (.inl rfl)

end Cursor

namespace Session

/-!
### Calls

A call other than a return is one of the readings at the session's cursor, or leaves it there.
-/

variable {tokens : List Token}

/-- The session after some calls, whatever they gave. -/
def after (session : Session) (calls : List Call) : Session :=
  calls.foldl (fun session call => (session.perform call).session) session

/-- A call takes a settled cursor to a settled one, and a return finds one if one was kept. -/
theorem settled_perform {session : Session} (settled : session.cursor.Settled tokens)
    (keptSettled : session.kept.Settled tokens) (call : Call) :
    (session.perform call).session.cursor.Settled tokens ∧
      (session.perform call).session.kept.Settled tokens := by
  have phrase : ∀ extent, (Phrase.read extent session.cursor).cursor.Settled tokens := fun extent =>
    have kept := Cursor.Keeps.run session.cursor.bound (.initial extent) session.cursor.position
      session.cursor.rest
    settled.of_leadsTo kept.forward kept.bound_eq
  cases call with
  | statement =>
      exact ⟨settled.of_leadsTo session.cursor.leadsTo_statement session.cursor.bound_statement,
        keptSettled⟩
  | expression => exact ⟨phrase .expression, keptSettled⟩
  | arithmetic => exact ⟨phrase .arithmetic, keptSettled⟩
  | factor => exact ⟨phrase .factor, keptSettled⟩
  | program =>
      exact ⟨settled.of_leadsTo session.cursor.leadsTo_program session.cursor.bound_program,
        keptSettled⟩
  | save => exact ⟨settled, settled⟩
  | restore => exact ⟨keptSettled, keptSettled⟩

/-- A turn is the same at any position if its reading is. -/
theorem take_embed {α : Type} {before : Nat} {here there : Reply α} (session fresh : Session)
    (product : α → Product) (same : here = there.embed before []) :
    (session.take product here).outcome = (fresh.take product there).outcome ∧
      (session.take product here).session.cursor =
        (fresh.take product there).session.cursor.embed before [] := by
  subst same
  exact ⟨rfl, rfl⟩

/-- At a settled cursor a call gives what it gives to a fresh session over the tokens that are left,
and moves the cursor as far. -/
theorem perform_eq_fresh {session : Session} (settled : session.cursor.Settled tokens) {call : Call}
    (noReturn : call ≠ .restore) :
    let fresh := (ofTokens (tokens.drop session.cursor.position)).perform call
    (session.perform call).outcome = fresh.outcome ∧
      (session.perform call).session.cursor =
        fresh.session.cursor.embed session.cursor.position [] := by
  have moved := settled.eq_embed
  have phrase : ∀ extent, Phrase.read extent session.cursor =
      (Phrase.read extent (.ofTokens (tokens.drop session.cursor.position))).embed
        session.cursor.position [] := by
    intro extent
    exact (congrArg (Phrase.read extent) moved).trans (Cursor.read_embed extent _ _)
  cases call with
  | statement =>
      apply take_embed
      exact (congrArg Cursor.statement moved).trans (Cursor.statement_embed (.inl rfl))
  | expression => exact take_embed _ _ _ (phrase .expression)
  | arithmetic => exact take_embed _ _ _ (phrase .arithmetic)
  | factor => exact take_embed _ _ _ (phrase .factor)
  | program =>
      apply take_embed
      exact (congrArg Cursor.program moved).trans (Cursor.program_embed _)
  | save => exact ⟨rfl, moved⟩
  | restore => exact absurd rfl noReturn

/-!
### Histories

A session has one place for a clone.  A history may keep several clones, and go back to any of them,
so the clone of one course over the tokens can become the kept one of another.
-/

/-- The sessions that calls over the given tokens can lead to. -/
inductive Reached (tokens : List Token) : Session → Prop where
  | start : Reached tokens (ofTokens tokens)
  | perform {session : Session} (before : Reached tokens session) (call : Call) :
      Reached tokens (session.perform call).session
  /-- The clone to which a session would go back is replaced by another one. -/
  | keep {session other : Session} (before : Reached tokens session)
      (clone : Reached tokens other) : Reached tokens ⟨session.cursor, other.kept⟩

theorem Reached.after {session : Session} (reached : Reached tokens session) (calls : List Call) :
    Reached tokens (session.after calls) := by
  induction calls generalizing session with
  | nil => exact reached
  | cons call calls ih => exact ih (reached.perform call)

/-- Whatever was called, and however it ended, the cursor is settled. -/
theorem Reached.settled {session : Session} (reached : Reached tokens session) :
    session.cursor.Settled tokens ∧ session.kept.Settled tokens := by
  induction reached with
  | start => exact ⟨Cursor.settled_ofTokens tokens, Cursor.settled_ofTokens tokens⟩
  | perform before call ih => exact settled_perform ih.1 ih.2 call
  | keep before clone ih ihClone => exact ⟨ih.1, ihClone.2⟩

/-- A session does not remember its calls.  After any calls the bound is the number of tokens, and
the next call, be it one that reads or one that keeps the cursor, has the result, the error and the
movement that it has in a fresh session over the tokens from the cursor on. -/
theorem perform_forgets_history {session : Session} (reached : Reached tokens session) :
    let position := session.cursor.position
    let fresh := ofTokens (tokens.drop position)
    position ≤ tokens.length ∧
    session.cursor.bound = tokens.length ∧
    session.cursor.rest = tokens.drop position ∧
    session.cursor.atEnd = fresh.cursor.atEnd ∧
    ∀ call, call ≠ .restore →
      (session.perform call).outcome = (fresh.perform call).outcome ∧
      (session.perform call).session.cursor.position =
        position + (fresh.perform call).session.cursor.position ∧
      (session.perform call).session.cursor.atEnd =
        (fresh.perform call).session.cursor.atEnd ∧
      (session.perform call).session.cursor.bound = tokens.length := by
  intro position fresh
  have settled := reached.settled.1
  refine ⟨settled.position_le, settled.bound_eq, settled.rest_eq, ?_, ?_⟩
  · exact congrArg List.isEmpty settled.rest_eq
  · intro call noReturn
    obtain ⟨sameOutcome, sameCursor⟩ := perform_eq_fresh settled noReturn
    refine ⟨sameOutcome, ?_, ?_, ?_⟩
    · rw [sameCursor]
      rfl
    · rw [sameCursor, Cursor.atEnd, Cursor.atEnd, Cursor.embed, List.append_nil]
    · exact (reached.perform call).settled.1.bound_eq

/-- A statement that failed for want of its semicolon leaves the next one as it is. -/
theorem perform_forgets_history_unended :
    let tokens := [.identifier "a", .ofText .assign "=", .integer 5, .identifier "b",
      .ofText .assign "=", .integer 6, .ofText .semicolon ";"]
    let session := (ofTokens tokens).after [.save, .statement]
    Reached tokens session ∧ session.cursor.position = 3 ∧ session.cursor.bound = 7 ∧
      (session.perform .statement).outcome =
        ((ofTokens (tokens.drop 3)).perform .statement).outcome ∧
      (session.perform .statement).session.cursor.position = 7 := by
  intro tokens session
  have reached : Reached tokens session := Reached.start.after [.save, .statement]
  have stopped : session.cursor.position = 3 := by decide
  obtain ⟨-, sameBound, -, -, next⟩ := perform_forgets_history reached
  rw [stopped] at next
  obtain ⟨sameOutcome, moved, -, -⟩ := next .statement nofun
  refine ⟨reached, stopped, sameBound, sameOutcome, ?_⟩
  rw [moved]
  decide

end Session

end CLike
