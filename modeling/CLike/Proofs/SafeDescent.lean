/-
Module: CLike.Proofs.SafeDescent
Layer: Proofs
Purpose: No check of the guarded descent ever fails: it gives what the readings give, so no place
  leaves the tokens, no slice is out of range, and every loop moves on until it ends.
Main exports: Descent.parameters_eq, Descent.declaration_eq, Descent.statementBody_eq,
  Descent.statement_eq, Descent.program_eq, Descent.perform_eq, Session.perform_safe
-/
import CLike.Proofs.Bounds
import CLike.Proofs.PhraseDescent
import CLike.Proofs.StatementLanguage

namespace CLike

open Descent

theorem Reply.placed_map {α β : Type} (change : α → β) (reply : Reply α) :
    (reply.map change).placed =
      reply.placed >>= fun (result, stop) => .ok (change result, stop) := by
  obtain ⟨outcome, cursor⟩ := reply
  cases outcome with
  | error cause => rfl
  | ok result => rfl

namespace Descent

variable {tokens : List Token} {cursor : Cursor}

theorem seen_eq_peek? (bounded : cursor.Bounded tokens) :
    seen tokens cursor.bound cursor.position = cursor.peek? := by
  rw [seen, ← bounded.head?_eq, Cursor.peek?]

theorem look_eq_peek? (bounded : cursor.Bounded tokens) :
    look tokens cursor.bound cursor.position 0 = .ok cursor.peek? := by
  rw [look_eq bounded.bound_ends.le_length bounded.position_le, Nat.add_zero,
    seen_eq_peek? bounded]

/-- A phrase at a cursor is read as at its place. -/
theorem read_at (bounded : cursor.Bounded tokens) (extent : Phrase.Extent) :
    Phrase.read extent ⟨cursor.position, tokens.drop cursor.position, cursor.bound⟩ =
      Phrase.read extent cursor := by
  rw [← bounded.rest_eq]

/-!
### Declarations
-/

theorem parameters_eq (bounded : cursor.Bounded tokens) (expecting : Bool) :
    parameters tokens cursor.bound expecting cursor.position =
      (cursor.parameters expecting).placed := by
  fun_induction Cursor.parameters expecting cursor with
  | case1 expecting cursor unseen =>
      rw [parameters, look_eq_peek? bounded, unseen]
      rfl
  | case2 expecting cursor token seen closes =>
      obtain ⟨inSight, rest, shape⟩ := Cursor.peek?_eq_some_iff.mp seen
      rw [parameters, look_eq_peek? bounded, seen, Cursor.advance_cons shape]
      simp only [ok_bind, if_pos closes]
      rw [pass_eq bounded.bound_ends.le_length inSight]
      rfl
  | case3 expecting cursor token seen noClosing isComma ih =>
      obtain ⟨inSight, rest, shape⟩ := Cursor.peek?_eq_some_iff.mp seen
      have later := ih (bounded.of_keeps (.advance seen))
      rw [parameters, look_eq_peek? bounded, seen]
      simp only [ok_bind, if_neg noClosing, if_pos isComma]
      rw [pass_eq bounded.bound_ends.le_length inSight]
      rw [← later, Cursor.advance_cons shape]
      rfl
  | case4 expecting cursor token seen noClosing noComma unexpected =>
      rw [parameters, look_eq_peek? bounded, seen]
      simp only [ok_bind, if_neg noClosing, if_neg noComma, if_pos unexpected]
      rfl
  | case5 expecting cursor token seen noClosing noComma expected typed ih =>
      obtain ⟨inSight, rest, shape⟩ := Cursor.peek?_eq_some_iff.mp seen
      have here := (seen_eq_peek? bounded).trans seen
      have behindType := bounded.of_keeps (.advance seen)
      have later := ih (behindType.of_keeps (.skip .identifier _))
      rw [Reply.placed_map, ← later, parameters, look_eq_peek? bounded, seen]
      simp only [ok_bind, if_neg noClosing, if_neg noComma, if_neg expected, if_pos typed]
      rw [advance_eq bounded.bound_ends.le_length here, Cursor.advance_cons shape]
      rw [Cursor.advance_cons shape] at behindType
      simp only [ok_bind]
      rw [look_eq_peek? behindType, ok_bind, Cursor.skip]
      split
      · next named =>
          obtain ⟨name, more, -, seenName, shapeName⟩ := Cursor.exists_of_any_peek? named
          have nameInSight := (Cursor.peek?_eq_some_iff.mp seenName).1
          rw [pass_eq bounded.bound_ends.le_length nameInSight, Cursor.advance_cons shapeName]
          rfl
      · rfl
  | case6 expecting cursor token seen noClosing noComma expected untyped =>
      rw [parameters, look_eq_peek? bounded, seen]
      simp only [ok_bind, if_neg noClosing, if_neg noComma, if_neg expected, if_neg untyped]
      rfl

/-- The type and the name of a declaration are in sight of its place. -/
theorem seen_both (bounded : cursor.Bounded tokens) {type name : Token}
    (seen : cursor.peek? = some type) (seenName : cursor.advance.peek? = some name) :
    Descent.seen tokens cursor.bound cursor.position = some type ∧
      Descent.seen tokens cursor.bound (cursor.position + 1) = some name ∧
      cursor.advance.advance.position = cursor.position + 2 ∧
      cursor.advance.advance.bound = cursor.bound := by
  obtain ⟨-, rest, shape⟩ := Cursor.peek?_eq_some_iff.mp seen
  obtain ⟨-, more, shapeName⟩ := Cursor.peek?_eq_some_iff.mp seenName
  have following := (seen_eq_peek? (bounded.of_keeps (.advance seen))).trans seenName
  rw [Cursor.advance_cons shapeName]
  rw [Cursor.advance_cons shape] at following ⊢
  exact ⟨(seen_eq_peek? bounded).trans seen, following, rfl, rfl⟩

theorem functionDeclaration_eq (bounded : cursor.Bounded tokens) {type name : Token}
    (seen : cursor.peek? = some type) (seenName : cursor.advance.peek? = some name) :
    functionDeclaration tokens cursor.bound cursor.position =
      (cursor.advance.advance.functionDeclaration type name).placed := by
  obtain ⟨here, following, place, sameBound⟩ := seen_both bounded seen seenName
  have whole := bounded.bound_ends.le_length
  have behindName := (bounded.of_keeps (.advance seen)).of_keeps (.advance seenName)
  have looked := look_eq_peek? behindName
  rw [place, sameBound] at looked
  rw [functionDeclaration, advance_eq whole here]
  simp only [ok_bind]
  rw [advance_eq whole following]
  simp only [ok_bind]
  rw [looked, ok_bind, Cursor.functionDeclaration]
  split
  · next opened =>
      obtain ⟨opening, inside, -, seenOpening, shapeOpening⟩ := Cursor.exists_of_any_peek? opened
      have inSight := (Cursor.peek?_eq_some_iff.mp seenOpening).1
      have behindOpening := behindName.of_keeps (.advance seenOpening)
      rw [place, sameBound] at inSight
      rw [Reply.placed_map, ← parameters_eq behindOpening, Cursor.advance_cons shapeOpening, place,
        sameBound, pass_eq whole inSight]
      rfl
  · rw [Reply.placed, place]

theorem variableDeclaration_eq (bounded : cursor.Bounded tokens) {type name : Token}
    (seen : cursor.peek? = some type) (seenName : cursor.advance.peek? = some name) :
    variableDeclaration tokens cursor.bound cursor.position =
      .ok (.variableDeclaration name type, cursor.advance.advance.position) := by
  obtain ⟨here, following, place, -⟩ := seen_both bounded seen seenName
  have whole := bounded.bound_ends.le_length
  rw [place, variableDeclaration, advance_eq whole here]
  simp only [ok_bind]
  rw [advance_eq whole following]
  rfl

theorem slice_visible (bounded : cursor.Bounded tokens) :
    slice tokens cursor.position cursor.bound = .ok cursor.visible := by
  rw [slice, if_pos ⟨bounded.position_le, bounded.bound_ends.le_length⟩, Cursor.visible,
    bounded.rest_eq]

/-- The name is looked up beyond the bound too, but a name at the bound would be a semicolon. -/
theorem declaration_eq (bounded : cursor.Bounded tokens) {type : Token}
    (seen : cursor.peek? = some type) :
    declaration tokens cursor.bound cursor.position = (cursor.declaration type).placed := by
  obtain ⟨-, rest, shape⟩ := Cursor.peek?_eq_some_iff.mp seen
  have behindType := bounded.of_keeps (.advance seen)
  have follows : cursor.advance.rest.head? = tokens[cursor.position + 1]? := by
    rw [behindType.head?_eq, Cursor.advance_cons shape]
  rw [declaration, Cursor.declaration, follows]
  cases named : tokens[cursor.position + 1]? with
  | none => rfl
  | some name =>
      by_cases isName : name.kind = .identifier
      · have seenName : cursor.advance.peek? = some name :=
          bounded.peek?_advance seen named (ne_of_eq_of_ne isName (by decide))
        simp only [ne_eq, isName, not_true, if_true, if_false]
        rw [slice_visible bounded, ok_bind]
        split
        · exact functionDeclaration_eq bounded seen seenName
        · exact variableDeclaration_eq bounded seen seenName
      · simp only [ne_eq, isName, not_false_iff, if_true, if_false]
        rfl

/-!
### Statements
-/

theorem takeWhile_eq_take_findIdx (span : List Token) :
    span.takeWhile (·.kind ≠ .assign) = span.take (span.findIdx (·.kind == .assign)) := by
  rw [List.takeWhile_eq_take_findIdx_not]
  congr 2
  funext token
  by_cases assigns : token.kind = .assign
  · simp [assigns]
  · simp [assigns]

/-- The last token of the left side is there, and the check looks at it. -/
theorem item_last {first second : Token} {more : List Token} {count : Nat}
    (enough : count ≤ more.length) :
    item (first :: second :: more) (count + 2 - 1) =
      .ok ((second :: more.take count).getLast (List.cons_ne_nil _ _)) := by
  have here : (first :: second :: more)[count + 2 - 1]? =
      (second :: more.take count).getLast? := by
    have counted : (second :: more.take count).length - 1 = count := by
      simp [List.length_take, Nat.min_eq_left enough]
    rw [List.getLast?_eq_getElem?, counted, ← List.take_succ_cons,
      List.getElem?_take_of_lt (Nat.lt_succ_self count)]
    rfl
  rw [item, here, List.getLast?_eq_getLast_of_ne_nil (List.cons_ne_nil _ _)]

/-- The check of an assignment looks at no token that is not there, because the assignment is not
empty. -/
theorem judge_eq (first : Token) (rest : List Token) (stop : Nat) :
    judge (first :: rest) stop =
      match checkAssignment (first :: rest) with
      | .ok _ => .ok ()
      | .error cause => .error (.fault cause stop) := by
  have enough : (first :: rest).findIdx (·.kind == .assign) ≤ (first :: rest).length :=
    List.findIdx_le_length
  have starts : (first :: rest).findIdx (·.kind == .assign) = 0 → first.kind = .assign := by
    intro atStart
    rw [List.findIdx_cons] at atStart
    cases assigns : first.kind == .assign with
    | true => exact eq_of_beq assigns
    | false => simp [assigns] at atStart
  have found : item (first :: rest) 0 = .ok first := rfl
  rw [judge, checkAssignment, takeWhile_eq_take_findIdx, found, ok_bind]
  generalize (first :: rest).findIdx (·.kind == .assign) = length at enough starts ⊢
  rcases length with - | - | count
  · simp [starts rfl]
  · by_cases isName : first.kind = .identifier
    · simp [isName]
    · simp [isName]
  · cases rest with
    | nil => simp at enough
    | cons second more =>
        have inside : count ≤ more.length := by simpa using enough
        rw [item_last inside, if_pos (Nat.one_lt_succ_succ count), List.take_succ_cons,
          List.take_succ_cons]
        simp only
        split
        · rfl
        · rw [ok_bind]
          split
          · rfl
          · rfl

theorem validate_eq {start stop : Nat} (moved : start < stop) (within : stop ≤ tokens.length) :
    validate tokens start stop =
      match checkAssignment ((tokens.drop start).take (stop - start)) with
      | .ok _ => .ok ()
      | .error cause => .error (.fault cause stop) := by
  have filled : (tokens.drop start).take (stop - start) ≠ [] := by
    apply List.ne_nil_of_length_pos
    rw [List.length_take, List.length_drop]
    omega
  obtain ⟨first, rest, shape⟩ := List.exists_cons_of_ne_nil filled
  rw [validate, slice, if_pos ⟨Nat.le_of_lt moved, within⟩, ok_bind, shape]
  exact judge_eq first rest stop

theorem expressionStatement_eq (bounded : cursor.Bounded tokens)
    (untyped : cursor.peek?.any (·.kind.isType) = false) :
    statementBody tokens cursor.bound cursor.position = cursor.expressionStatement.placed := by
  have whole := bounded.bound_ends.le_length
  have asRead : expression tokens cursor.bound cursor.position = cursor.expression.placed := by
    rw [expression_eq whole bounded.position_le, read_at bounded]
    rfl
  have onward : ∀ {node stop}, cursor.expression.placed = .ok (node, stop) →
      cursor.position < stop ∧ stop ≤ cursor.bound := by
    intro node stop read
    rw [Cursor.expression, ← read_at bounded] at read
    exact read_onward bounded.position_le read
  rw [statementBody, look_eq_peek? bounded, ok_bind, untyped, asRead, Cursor.expressionStatement]
  unfold Reply.placed at onward ⊢
  cases outcome : cursor.expression.outcome with
  | error cause => rfl
  | ok node =>
      rw [outcome] at onward
      obtain ⟨moved, within⟩ := onward rfl
      simp only [ok_bind, Bool.false_eq_true, if_false, Except.bind, Cursor.asStatement]
      rw [validate_eq moved (Nat.le_trans within whole), ← bounded.rest_eq]
      split
      · generalize checkAssignment _ = judged
        cases judged with
        | error cause => rfl
        | ok _ => rfl
      · split
        · rfl
        · rfl

theorem statementBody_eq (bounded : cursor.Bounded tokens) :
    statementBody tokens cursor.bound cursor.position = cursor.statementBody.placed := by
  cases typed : cursor.peek?.any (·.kind.isType) with
  | true =>
      obtain ⟨type, seen, isType⟩ := (Option.any_eq_true ..).mp typed
      rw [statementBody, look_eq_peek? bounded, ok_bind, typed, declaration_eq bounded seen,
        Cursor.statementBody, seen]
      simp only [isType, if_true]
  | false =>
      rw [expressionStatement_eq bounded typed, Cursor.statementBody]
      split
      · next token seen =>
          have noType : ¬ token.kind.isType = true := by simpa [seen] using typed
          rw [if_neg noType]
      · rfl

theorem statement_eq (settled : cursor.Settled tokens) :
    statement tokens cursor.bound cursor.position = cursor.statement.placed := by
  have enclosed := settled.enclosed
  have reached := enclosed.of_keeps (.statementBody cursor.fenced_withBound)
  have remaining : slice tokens cursor.position tokens.length = .ok cursor.rest := by
    rw [slice, if_pos ⟨settled.position_le, Nat.le_refl _⟩, ← List.length_drop, List.take_length,
      settled.rest_eq]
  have body := statementBody_eq enclosed.toBounded
  change statementBody tokens cursor.semicolonIndex cursor.position = _ at body
  have bounded : stand tokens cursor.semicolonIndex cursor.position = .ok () :=
    stand_eq enclosed.bound_ends.le_length enclosed.position_le
  have back : stand tokens cursor.bound
      (cursor.withBound cursor.semicolonIndex).statementBody.cursor.position = .ok () :=
    stand_eq (Nat.le_of_eq settled.bound_eq) (settled.bound_eq ▸
      Nat.le_trans reached.position_le reached.bound_ends.le_length)
  rw [statement, remaining, ok_bind]
  change (stand tokens cursor.semicolonIndex cursor.position >>= fun _ =>
    statementBody tokens cursor.semicolonIndex cursor.position >>= _) = _
  rw [bounded, ok_bind, body, Cursor.statement]
  unfold Reply.placed Cursor.terminated
  generalize (cursor.withBound cursor.semicolonIndex).statementBody = reply at reached back ⊢
  obtain ⟨outcome, stop⟩ := reply
  cases outcome with
  | error cause => rfl
  | ok node =>
      simp only [ok_bind]
      rw [back, ok_bind, ← reached.head?_eq]
      simp only [Cursor.rest_withBound]
      cases shape : stop.rest with
      | nil => rfl
      | cons token rest =>
          simp only [List.head?_cons]
          by_cases ends : token.kind = .semicolon
          · have inside := (List.getElem?_eq_some_iff.mp (reached.getElem?_of_rest shape)).1
            have passed := pass_eq (Nat.le_of_eq settled.bound_eq) (settled.bound_eq ▸ inside)
            rw [if_pos ends, if_pos ends, passed, Cursor.advance_cons]
            · rfl
            · exact shape
          · rw [if_neg ends, if_neg ends]
            rfl

/-!
### Programs and sessions
-/

theorem atEnd_iff (settled : cursor.Settled tokens) :
    cursor.atEnd = true ↔ tokens.length ≤ cursor.position := by
  rw [Cursor.atEnd, settled.rest_eq, List.isEmpty_iff, List.drop_eq_nil_iff]

theorem program_eq (settled : cursor.Settled tokens) :
    program tokens cursor.bound cursor.position = cursor.program.placed := by
  fun_induction Cursor.program cursor with
  | case1 cursor ended =>
      rw [program, if_pos ((atEnd_iff settled).mp ended)]
      rfl
  | case2 cursor unended reply cause failed =>
      have read : statement tokens cursor.bound cursor.position =
          .error (.fault cause reply.cursor.position) := by
        rw [statement_eq settled, Reply.placed]
        simp only [reply] at failed
        rw [failed]
      rw [program, if_neg (mt (atEnd_iff settled).mpr unended), read]
      rfl
  | case3 cursor unended reply node success ih =>
      have behind : reply.cursor.Settled tokens :=
        settled.of_leadsTo cursor.leadsTo_statement cursor.bound_statement
      have moved : cursor.position < reply.cursor.position ∧
          reply.cursor.position ≤ cursor.bound := by
        rw [settled.bound_eq]
        exact ⟨(settled.behind_semicolon success).1, behind.position_le⟩
      have read : statement tokens cursor.bound cursor.position =
          .ok (node, reply.cursor.position) := by
        rw [statement_eq settled, Reply.placed]
        simp only [reply] at success
        rw [success]
      have sameBound : reply.cursor.bound = cursor.bound := cursor.bound_statement
      rw [program, if_neg (mt (atEnd_iff settled).mpr unended), read, Reply.placed_map,
        ← ih behind, sameBound]
      simp only [ok_bind]
      rw [beyond_eq moved]
      rfl

theorem giving_placed {α : Type} (session : Session) (product : α → Session.Product)
    (reply : Reply α) :
    giving product reply.placed =
      Reply.placed ⟨(session.take product reply).outcome,
        (session.take product reply).session.cursor⟩ :=
  (Reply.placed_map product reply).symm

/-- A session answers each call as the descent does, from wherever earlier calls have left it. -/
theorem perform_eq {session : Session} (settled : session.cursor.Settled tokens)
    (call : Session.Call) :
    perform tokens session call =
      Reply.placed ⟨(session.perform call).outcome, (session.perform call).session.cursor⟩ := by
  have bounded := settled.bounded
  have whole := bounded.bound_ends.le_length
  have inside := bounded.position_le
  cases call with
  | statement =>
      rw [perform, statement_eq settled]
      exact giving_placed session .node session.cursor.statement
  | expression =>
      rw [perform, expression_eq whole inside, read_at bounded]
      exact giving_placed session .node session.cursor.expression
  | arithmetic =>
      rw [perform, arithmetic_eq whole inside, read_at bounded]
      exact giving_placed session .node session.cursor.arithmetic
  | factor =>
      rw [perform, factor_eq whole inside, read_at bounded]
      exact giving_placed session .node session.cursor.factor
  | program =>
      rw [perform, program_eq settled]
      exact giving_placed session .nodes session.cursor.program
  | save => rfl
  | restore => rfl

end Descent

/-!
### How far a call goes
-/

/-- No statement is shorter than a type and a name. -/
theorem Grammar.Statement.two_le_length {tokens : List Token} {node : Node}
    (statement : Statement tokens node) : 2 ≤ tokens.length := by
  cases statement with
  | variableDeclaration => exact Nat.le_refl 2
  | functionDeclaration => exact Nat.le_add_left 2 _
  | assignment assignment =>
      obtain ⟨name, operator, rest, rfl, -⟩ := assignment.exists_head
      exact Nat.le_add_left 2 _
  | call => exact Nat.le_add_left 2 _

namespace Cursor

variable {tokens : List Token} {cursor : Cursor}

theorem LeadsTo.position_le {start finish : Cursor} (forward : start.LeadsTo finish) :
    start.position ≤ finish.position := by
  obtain ⟨taken, -, moved⟩ := forward
  rw [moved]
  exact Nat.le_add_right ..

/-- A statement is its body, of two tokens at least, and its semicolon. -/
theorem statement_passes_three {node : Node} (read : cursor.statement.outcome = .ok node) :
    cursor.position + 3 ≤ cursor.statement.cursor.position := by
  obtain ⟨body, semicolon, rest, shape, ends, statement⟩ := statement_sound read
  have long := statement.two_le_length
  rw [statement_complete statement ends shape]
  simp only
  omega

theorem phrase_passes_one {extent : Phrase.Extent} {node : Node}
    (read : (Phrase.read extent cursor).outcome = .ok node) :
    cursor.position + 1 ≤ (Phrase.read extent cursor).cursor.position := by
  obtain ⟨taken, -, moved, derived⟩ := Phrase.read_sound read
  rw [moved]
  exact Nat.add_le_add_left (List.length_pos_iff.mpr derived.filled) _

/-- A statement that fails comes to the first semicolon at the latest. -/
theorem Settled.statement_stops (settled : cursor.Settled tokens) {cause : GrammarError}
    (failed : cursor.statement.outcome = .error cause) {index : Nat} {semicolon : Token}
    (behind : cursor.position ≤ index) (here : tokens[index]? = some semicolon)
    (ends : semicolon.kind = .semicolon) : cursor.statement.cursor.position ≤ index := by
  have stop := (terminated_error failed).1
  have within : cursor.statement.cursor.position ≤ cursor.semicolonIndex := by
    unfold Cursor.statement
    simp only [stop]
    exact cursor.position_statementBody_le
  apply Nat.le_trans within
  apply Nat.le_of_not_lt
  intro before
  exact settled.enclosed.unended index semicolon behind before here ends

end Cursor

namespace Session

variable {tokens : List Token}

theorem leadsTo_perform (session : Session) {call : Call} (noReturn : call ≠ .restore) :
    session.cursor.LeadsTo (session.perform call).session.cursor := by
  cases call with
  | statement => exact session.cursor.leadsTo_statement
  | expression => exact session.cursor.leadsTo_expression
  | arithmetic => exact (Cursor.Keeps.run _ _ _ _).forward
  | factor => exact (Cursor.Keeps.run _ _ _ _).forward
  | program => exact session.cursor.leadsTo_program
  | save => exact .refl _
  | restore => exact absurd rfl noReturn

/-- Only a return moves the cursor back. -/
theorem leadsTo_after (session : Session) {calls : List Call} (noReturn : .restore ∉ calls) :
    session.cursor.LeadsTo (session.after calls).cursor := by
  induction calls generalizing session with
  | nil => exact .refl _
  | cons call calls ih =>
      rw [List.mem_cons, not_or] at noReturn
      exact (session.leadsTo_perform (Ne.symm noReturn.1)).trans (ih _ noReturn.2)

/-- Whatever calls came before, a call breaks none of the checks of the descent: it answers what the
descent answers, and that is never a breach.  So at each look and each move the place is at or
before the bound and the bound at or before the end of the tokens, each slice and each element is
there, and each loop that comes round has moved on.  The cursor does not go back unless it is told
to; a phrase that is read takes a token and a statement takes three, and a statement that fails
stays at or before the first semicolon that is not before its start. -/
theorem perform_safe {session : Session} (reached : Reached tokens session) :
    session.cursor.position ≤ session.cursor.bound ∧ session.cursor.bound = tokens.length ∧
    (∀ calls, .restore ∉ calls →
      session.cursor.position ≤ (session.after calls).cursor.position) ∧
    ∀ call,
      let turn := session.perform call
      turn.session.cursor.position ≤ turn.session.cursor.bound ∧
      turn.session.cursor.bound = tokens.length ∧
      Descent.perform tokens session call =
        Reply.placed ⟨turn.outcome, turn.session.cursor⟩ ∧
      (∀ reason, Descent.perform tokens session call ≠ .error (.breach reason)) ∧
      (∀ product, turn.outcome = .ok product →
        (call = .factor ∨ call = .arithmetic ∨ call = .expression →
          session.cursor.position + 1 ≤ turn.session.cursor.position) ∧
        (call = .statement → session.cursor.position + 3 ≤ turn.session.cursor.position)) ∧
      (∀ cause, turn.outcome = .error cause → call = .statement →
        turn.session.cursor.position ≤ tokens.length ∧
        ∀ index semicolon, session.cursor.position ≤ index → tokens[index]? = some semicolon →
          semicolon.kind = .semicolon → turn.session.cursor.position ≤ index) := by
  have settled := reached.settled.1
  refine ⟨settled.bounded.position_le, settled.bound_eq, ?_, ?_⟩
  · intro calls noReturn
    exact (session.leadsTo_after noReturn).position_le
  · intro call turn
    have after := (reached.perform call).settled.1
    have same := Descent.perform_eq settled call
    refine ⟨after.bounded.position_le, after.bound_eq, same, ?_, ?_, ?_⟩
    · intro reason
      rw [same, Reply.placed]
      split
      · nofun
      · nofun
    · intro product success
      have phrase : ∀ extent,
          (session.take .node (Phrase.read extent session.cursor)).outcome = .ok product →
            session.cursor.position + 1 ≤
              (Phrase.read extent session.cursor).cursor.position := by
        intro extent success
        obtain ⟨node, read, -⟩ := Reply.outcome_map_eq_ok_iff.mp success
        exact Cursor.phrase_passes_one read
      constructor
      · rintro (rfl | rfl | rfl)
        · exact phrase .factor success
        · exact phrase .arithmetic success
        · exact phrase .expression success
      · rintro rfl
        obtain ⟨node, read, -⟩ := Reply.outcome_map_eq_ok_iff.mp success
        exact Cursor.statement_passes_three read
    · rintro cause failed rfl
      refine ⟨after.position_le, ?_⟩
      intro index semicolon
      exact settled.statement_stops (Reply.outcome_map_eq_error_iff.mp failed)

/-- A call with a nested call in its arguments, and behind it a name that is no statement. -/
theorem perform_safe_nested_call :
    let tokens := [.identifier "f", .ofText .leftParen "(", .identifier "g",
      .ofText .leftParen "(", .ofText .rightParen ")", .ofText .comma ",", .integer 1,
      .ofText .rightParen ")", .ofText .semicolon ";", .identifier "a"]
    let session := ofTokens tokens
    let read := Node.call (.identifier "f")
      [.call (.identifier "g") [], .leaf (.integer 1)]
    Reached tokens session ∧
      Descent.perform tokens session .statement = .ok (.node read, 9) ∧
      Descent.perform tokens (session.after [.statement]) .statement =
        .error (.fault .danglingExpression 10) := by
  intro tokens session read
  have reached : Reached tokens session := .start
  have behind : Reached tokens (session.after [.statement]) := reached.after [.statement]
  obtain ⟨-, -, -, answers⟩ := perform_safe reached
  obtain ⟨-, -, -, later⟩ := perform_safe behind
  obtain ⟨-, -, first, -⟩ := answers .statement
  obtain ⟨-, -, second, -⟩ := later .statement
  exact ⟨reached, first, second⟩

end Session

end CLike
