/-
Module: CLike.Proofs.PhraseDescent
Layer: Proofs
Purpose: The guarded descent reads phrases as the machine does, which looks at one token after the
  other, and none of its checks fails on the way.
Main exports: Reply.placed, Descent.runAt, Descent.FactorRuns, Descent.ArithmeticRuns,
  Descent.ArgumentsRun, Descent.OperationsRun, Descent.runs, Descent.factor_eq,
  Descent.arithmetic_eq, Descent.expression_eq
-/
import CLike.Proofs.GuardedDescent
import CLike.Proofs.PhraseLanguage

namespace CLike

open Descent

/-- A reply as a descent gives it: the result and the place behind it, or the fault and its
place. -/
def Reply.placed {α : Type} (reply : Reply α) : Except Stop (α × Nat) :=
  match reply.outcome with
  | .ok result => .ok (result, reply.cursor.position)
  | .error cause => .error (.fault cause reply.cursor.position)

namespace Descent

theorem ok_bind {α β : Type} (value : α) (next : α → Except Stop β) :
    (Except.ok value >>= next) = next value := rfl

/-- What succeeds in two steps succeeds in the first. -/
theorem exists_of_bind_eq_ok {α β : Type} {action : Except Stop α} {next : α → Except Stop β}
    {value : β} (success : (action >>= next) = .ok value) :
    ∃ found, action = .ok found ∧ next found = .ok value := by
  cases action with
  | error stop => cases success
  | ok found => exact ⟨found, rfl, success⟩

variable {tokens : List Token} {bound place : Nat}

/-!
### Checks that hold

Before the bound, and with the bound before the end of the tokens, all moves are allowed.
-/

theorem seen_eq_some_iff {token : Token} :
    seen tokens bound place = some token ↔ place < bound ∧ tokens[place]? = some token := by
  unfold seen
  split
  · next inSight => simp [inSight]
  · next outOfSight => simp [outOfSight]

theorem stand_eq (whole : bound ≤ tokens.length) (inside : place ≤ bound) :
    stand tokens bound place = .ok () :=
  if_pos ⟨inside, whole⟩

theorem look_eq (whole : bound ≤ tokens.length) (inside : place ≤ bound) (distance : Nat) :
    look tokens bound place distance = .ok (seen tokens bound (place + distance)) := by
  rw [look, stand_eq whole inside, ok_bind]

theorem pass_eq (whole : bound ≤ tokens.length) (inSight : place < bound) :
    pass tokens bound place = .ok ⟨place + 1, Nat.lt_succ_self place, inSight⟩ :=
  dif_pos ⟨inSight, whole⟩

theorem advance_eq (whole : bound ≤ tokens.length) {token : Token}
    (here : seen tokens bound place = some token) :
    advance tokens bound place =
      .ok (token, ⟨place + 1, Nat.lt_succ_self place, (seen_eq_some_iff.mp here).1⟩) := by
  have inSight := (seen_eq_some_iff.mp here).1
  have found : look tokens bound place 0 = .ok (some token) := by
    rw [look_eq whole (Nat.le_of_lt inSight), Nat.add_zero, here]
  rw [advance, found, ok_bind, pass_eq whole inSight]
  rfl

theorem beyond_eq {start : Nat} (moved : start < place ∧ place ≤ bound) :
    beyond bound start place = .ok ⟨place, moved⟩ := dif_pos moved

/-!
### Runs at places

The readings of phrases are runs of a machine.  A routine of the descent does what the machine does
until it stands behind the phrase of the routine, whatever it is part of.
-/

/-- What the machine gives from a state at a place on. -/
def runAt (tokens : List Token) (bound : Nat) (state : Phrase.State) (place : Nat) :
    Except Stop (Node × Nat) :=
  (state.run bound place (tokens.drop place)).placed

theorem runAt_seen {token : Token} (here : seen tokens bound place = some token)
    (state : Phrase.State) :
    runAt tokens bound state place =
      match state.step token with
      | .more next => runAt tokens bound next (place + 1)
      | .done phrase => .ok (phrase, place)
      | .fail cause => .error (.fault cause place) := by
  obtain ⟨inSight, found⟩ := seen_eq_some_iff.mp here
  obtain ⟨inside, rfl⟩ := List.getElem?_eq_some_iff.mp found
  rw [runAt, List.drop_eq_getElem_cons inside, Phrase.State.run, if_pos inSight]
  cases state.step tokens[place] with
  | more next => rfl
  | done phrase => rfl
  | fail cause => rfl

theorem runAt_more {token : Token} (here : seen tokens bound place = some token)
    {state next : Phrase.State} (goesOn : state.step token = .more next) :
    runAt tokens bound state place = runAt tokens bound next (place + 1) := by
  rw [runAt_seen here, goesOn]

theorem runAt_unseen (unseen : seen tokens bound place = none) (state : Phrase.State) :
    runAt tokens bound state place =
      match state.finish tokens[place]? with
      | .ok phrase => .ok (phrase, place)
      | .error cause => .error (.fault cause place) := by
  rw [runAt, ← List.head?_drop]
  cases shape : tokens.drop place with
  | nil =>
      rw [Phrase.State.run, List.head?_nil]
      cases state.finish none with
      | ok phrase => rfl
      | error cause => rfl
  | cons token rest =>
      have outOfSight : ¬ place < bound := by
        intro inSight
        rw [seen, if_pos inSight, ← List.head?_drop, shape] at unseen
        cases unseen
      rw [Phrase.State.run, if_neg outOfSight, List.head?_cons]
      cases state.finish (some token) with
      | ok phrase => rfl
      | error cause => rfl

/-- A name without a parenthesis behind it is a factor like any other. -/
theorem runAt_named {name : Token} {waiting : Option Phrase.Pending} {context : Phrase.Context}
    (noCall : (seen tokens bound place).any (·.kind == .leftParen) = false) :
    runAt tokens bound (.named name waiting context) place =
      runAt tokens bound (.chain (Phrase.join waiting (.leaf name)) context) place := by
  cases here : seen tokens bound place with
  | none =>
      rw [runAt_unseen here, runAt_unseen here]
      rfl
  | some token =>
      have noOpening : token.kind ≠ .leftParen := by simpa [here] using noCall
      rw [runAt_seen here, runAt_seen here, Phrase.State.step, if_neg noOpening]
      rfl

/-- Behind an argument that no operator prolongs, a call goes on as between arguments. -/
theorem runAt_argument {argument : Node} {call : Phrase.OpenCall} {outer : Phrase.Context}
    (complete : (seen tokens bound place).any (·.kind.isArithmetic) = false) :
    runAt tokens bound (.chain argument (.argument call outer)) place =
      runAt tokens bound (.between false (call.push argument) outer) place := by
  cases here : seen tokens bound place with
  | none =>
      rw [runAt_unseen here, runAt_unseen here]
      rfl
  | some token =>
      have noOperator : ¬ token.kind.isArithmetic = true := by simpa [here] using complete
      rw [runAt_seen here, runAt_seen here, Phrase.State.step, Phrase.chainStep, if_neg noOperator]
      rfl

/-- Where a factor has to follow, the machine does what the routine for factors does and goes on
behind the factor, whatever operand waits for it. -/
def FactorRuns (tokens : List Token) (bound place : Nat) : Prop :=
  ∀ waiting context, runAt tokens bound (.operand waiting context) place =
    factor tokens bound place >>= fun (node, stop) =>
      runAt tokens bound (.chain (Phrase.join waiting node) context) stop

/-- Between arguments, the machine does what the loop over arguments does and goes on behind the
call. -/
def ArgumentsRun (tokens : List Token) (bound place : Nat) : Prop :=
  ∀ expecting waiting callee earlier outer,
    runAt tokens bound (.between expecting ⟨waiting, callee, earlier⟩ outer) place =
      arguments tokens bound expecting earlier place >>= fun (read, stop) =>
        runAt tokens bound (.chain (Phrase.join waiting (.call callee read)) outer) stop

/-- Where a chain has to follow, the machine goes on behind the whole chain. -/
def ArithmeticRuns (tokens : List Token) (bound place : Nat) : Prop :=
  ∀ context : Phrase.Context, context.Chains → runAt tokens bound (.operand none context) place =
    arithmetic tokens bound place >>= fun (node, stop) =>
      runAt tokens bound (.chain node context) stop

/-- Behind a part of a chain, the machine goes on behind the whole chain. -/
def OperationsRun (tokens : List Token) (bound place : Nat) : Prop :=
  ∀ (left : Node) (context : Phrase.Context), context.Chains →
    runAt tokens bound (.chain left context) place =
      operations tokens bound left place >>= fun (node, stop) =>
        runAt tokens bound (.chain node context) stop

theorem FactorRuns.of_later (whole : bound ≤ tokens.length) (inside : place ≤ bound)
    (later : ∀ next, place < next → next ≤ bound → ArgumentsRun tokens bound next) :
    FactorRuns tokens bound place := by
  intro waiting context
  rw [factor, look_eq whole inside, ok_bind, Nat.add_zero]
  cases here : seen tokens bound place with
  | none =>
      rw [runAt_unseen here]
      cases tokens[place]? with
      | none => rfl
      | some token => rfl
  | some token =>
      have inSight := (seen_eq_some_iff.mp here).1
      by_cases isLiteral : token.kind = .integer ∨ token.kind = .character ∨ token.kind = .string
      · simp only [if_pos isLiteral]
        rw [runAt_more here (Phrase.State.step_literal isLiteral waiting context),
          pass_eq whole inSight]
        rfl
      · simp only [if_neg isLiteral]
        by_cases isName : token.kind = .identifier
        · rw [runAt_more here (Phrase.State.step_name isName waiting context), if_pos isName,
            look_eq whole inside, ok_bind]
          cases opened : (seen tokens bound (place + 1)).any (·.kind == .leftParen) with
          | false =>
              rw [runAt_named opened, pass_eq whole inSight]
              rfl
          | true =>
              obtain ⟨opening, found, opens⟩ := (Option.any_eq_true ..).mp opened
              have behind := (seen_eq_some_iff.mp found).1
              have opensCall : (Phrase.State.named token waiting context).step opening =
                  .more (.between true ⟨waiting, token, []⟩ context) := if_pos (eq_of_beq opens)
              rw [runAt_more found opensCall, later (place + 2) (by omega) behind]
              simp only [if_true]
              rw [call, advance_eq whole here]
              simp only [ok_bind]
              rw [advance_eq whole found]
              simp only [ok_bind]
              cases arguments tokens bound true [] (place + 2) with
              | error stop => rfl
              | ok found => rfl
        · have refused : (Phrase.State.operand waiting context).step token =
              .fail (.unsupportedFactor token.text) := by
            rw [Phrase.State.step, Phrase.operandStep, if_neg isLiteral, if_neg isName]
          rw [runAt_seen here, refused, if_neg isName]
          rfl

/-- What a reading gives lies behind its start and not behind its bound. -/
theorem read_onward {extent : Phrase.Extent} (inside : place ≤ bound) {node : Node} {stop : Nat}
    (read : (Phrase.read extent ⟨place, tokens.drop place, bound⟩).placed = .ok (node, stop)) :
    place < stop ∧ stop ≤ bound := by
  have within := (Cursor.Keeps.run bound (.initial extent) place (tokens.drop place)).within inside
  unfold Reply.placed at read
  split at read
  · next found outcome =>
      cases read
      obtain ⟨taken, -, moved, derived⟩ := Phrase.read_sound outcome
      refine ⟨?_, within⟩
      have filled := List.length_pos_iff.mpr derived.filled
      rw [moved]
      exact Nat.lt_add_of_pos_right filled
  · cases read

/-- A factor by itself ends wherever it ends. -/
theorem FactorRuns.eq_read (runs : FactorRuns tokens bound place) :
    factor tokens bound place =
      (Phrase.read .factor ⟨place, tokens.drop place, bound⟩).placed := by
  have ends : ∀ node stop, runAt tokens bound (.chain node (.whole .factor none)) stop =
      .ok (node, stop) := by
    intro node stop
    cases here : seen tokens bound stop with
    | none =>
        rw [runAt_unseen here]
        rfl
    | some token =>
        rw [runAt_seen here, Phrase.State.step, Phrase.chainStep, if_neg (by simp),
          if_neg (by simp)]
        rfl
  refine .trans ?_ (runs none (.whole .factor none)).symm
  cases factor tokens bound place with
  | error stop => rfl
  | ok found => exact (ends found.1 found.2).symm

theorem FactorRuns.onward (runs : FactorRuns tokens bound place) (inside : place ≤ bound)
    {node : Node} {stop : Nat} (read : factor tokens bound place = .ok (node, stop)) :
    place < stop ∧ stop ≤ bound :=
  read_onward inside (runs.eq_read.symm.trans read)

theorem OperationsRun.of_later (whole : bound ≤ tokens.length) (inside : place ≤ bound)
    (factors : ∀ next, place < next → next ≤ bound → FactorRuns tokens bound next)
    (later : ∀ next, place < next → next ≤ bound → OperationsRun tokens bound next) :
    OperationsRun tokens bound place := by
  intro left context chains
  rw [operations, look_eq whole inside, ok_bind, Nat.add_zero]
  cases followed : (seen tokens bound place).any (·.kind.isArithmetic) with
  | false => rfl
  | true =>
      obtain ⟨operator, here, isOperator⟩ := (Option.any_eq_true ..).mp followed
      have inSight := (seen_eq_some_iff.mp here).1
      have operand := factors (place + 1) (Nat.lt_succ_self place) inSight
      have goesOn : (Phrase.State.chain left context).step operator =
          .more (.operand (some ⟨left, operator⟩) context) :=
        Phrase.chainStep_operator chains isOperator
      rw [runAt_more here goesOn, operand, if_pos rfl, advance_eq whole here]
      simp only [ok_bind]
      cases read : factor tokens bound (place + 1) with
      | error stop => rfl
      | ok found =>
          obtain ⟨right, stop⟩ := found
          obtain ⟨moved, behind⟩ := operand.onward inSight read
          have moved : place < stop := Nat.lt_of_succ_lt moved
          simp only [ok_bind]
          rw [beyond_eq ⟨moved, behind⟩]
          exact later stop moved behind _ context chains

theorem ArithmeticRuns.of_later (inside : place ≤ bound) (first : FactorRuns tokens bound place)
    (later : ∀ next, place < next → next ≤ bound → OperationsRun tokens bound next) :
    ArithmeticRuns tokens bound place := by
  intro context chains
  rw [first, arithmetic]
  cases read : factor tokens bound place with
  | error stop => rfl
  | ok found =>
      obtain ⟨left, stop⟩ := found
      have moved := first.onward inside read
      simp only [ok_bind]
      rw [beyond_eq moved]
      exact later stop moved.1 moved.2 left context chains

/-- A chain ends where no operator is in sight. -/
theorem operations_complete {left node : Node} {stop : Nat}
    (read : operations tokens bound left place = .ok (node, stop)) :
    (seen tokens bound stop).any (·.kind.isArithmetic) = false := by
  induction distance : bound - place using Nat.strongRecOn generalizing left place with
  | ind distance ih =>
      rw [operations] at read
      obtain ⟨following, looked, read⟩ := exists_of_bind_eq_ok read
      split at read
      · obtain ⟨⟨operator, operand⟩, -, read⟩ := exists_of_bind_eq_ok read
        obtain ⟨⟨right, behind⟩, -, read⟩ := exists_of_bind_eq_ok read
        dsimp only at read
        obtain ⟨⟨next, moved, within⟩, -, read⟩ := exists_of_bind_eq_ok read
        exact ih (bound - next) (by omega) read rfl
      · next ended =>
          cases read
          rw [look] at looked
          obtain ⟨-, -, looked⟩ := exists_of_bind_eq_ok looked
          cases looked
          exact Bool.eq_false_iff.mpr ended

theorem arithmetic_complete {node : Node} {stop : Nat}
    (read : arithmetic tokens bound place = .ok (node, stop)) :
    (seen tokens bound stop).any (·.kind.isArithmetic) = false := by
  rw [arithmetic] at read
  obtain ⟨⟨left, behind⟩, -, read⟩ := exists_of_bind_eq_ok read
  dsimp only at read
  obtain ⟨⟨next, onward⟩, -, read⟩ := exists_of_bind_eq_ok read
  exact operations_complete read

theorem ArithmeticRuns.eq_read (runs : ArithmeticRuns tokens bound place) :
    arithmetic tokens bound place =
      (Phrase.read .arithmetic ⟨place, tokens.drop place, bound⟩).placed := by
  refine .trans ?_ (runs (.whole .arithmetic none) nofun).symm
  cases read : arithmetic tokens bound place with
  | error stop => rfl
  | ok found =>
      obtain ⟨node, stop⟩ := found
      have complete := arithmetic_complete read
      simp only [ok_bind]
      cases here : seen tokens bound stop with
      | none =>
          rw [runAt_unseen here]
          rfl
      | some token =>
          have noOperator : ¬ token.kind.isArithmetic = true := by simpa [here] using complete
          rw [runAt_seen here, Phrase.State.step, Phrase.chainStep, if_neg (by simp [noOperator]),
            if_neg (by simp)]
          rfl

theorem ArithmeticRuns.onward (runs : ArithmeticRuns tokens bound place) (inside : place ≤ bound)
    {node : Node} {stop : Nat} (read : arithmetic tokens bound place = .ok (node, stop)) :
    place < stop ∧ stop ≤ bound :=
  read_onward inside (runs.eq_read.symm.trans read)

theorem ArgumentsRun.of_later (whole : bound ≤ tokens.length) (inside : place ≤ bound)
    (next : ArithmeticRuns tokens bound place)
    (later : ∀ next, place < next → next ≤ bound → ArgumentsRun tokens bound next) :
    ArgumentsRun tokens bound place := by
  intro expecting waiting callee earlier outer
  rw [arguments, look_eq whole inside, ok_bind, Nat.add_zero]
  cases here : seen tokens bound place with
  | none =>
      rw [runAt_unseen here]
      rfl
  | some token =>
      have inSight := (seen_eq_some_iff.mp here).1
      have between : ∀ {state : Phrase.State},
          Phrase.betweenStep expecting ⟨waiting, callee, earlier⟩ outer token = .more state →
            runAt tokens bound (.between expecting ⟨waiting, callee, earlier⟩ outer) place =
              runAt tokens bound state (place + 1) := fun step => runAt_more here step
      unfold Phrase.betweenStep at between
      by_cases closes : token.kind = .rightParen
      · simp only [if_pos closes] at between ⊢
        rw [between rfl, pass_eq whole inSight]
        rfl
      · simp only [if_neg closes] at between ⊢
        by_cases isComma : token.kind = .comma
        · simp only [if_pos isComma] at between ⊢
          rw [between rfl, pass_eq whole inSight]
          exact later (place + 1) (Nat.lt_succ_self place) inSight ..
        · simp only [if_neg isComma] at between ⊢
          cases expecting with
          | false =>
              rw [runAt_seen here, Phrase.State.step, Phrase.betweenStep, if_neg closes,
                if_neg isComma]
              rfl
          | true =>
              have asOperand : runAt tokens bound (.between true ⟨waiting, callee, earlier⟩ outer)
                  place = runAt tokens bound
                    (.operand none (.argument ⟨waiting, callee, earlier⟩ outer)) place := by
                rw [runAt_seen here, runAt_seen here, Phrase.State.step_between closes isComma]
              rw [asOperand, next (.argument ⟨waiting, callee, earlier⟩ outer) trivial]
              cases read : arithmetic tokens bound place with
              | error stop => rfl
              | ok found =>
                  obtain ⟨argument, stop⟩ := found
                  have moved := next.onward inside read
                  simp only [ok_bind, Bool.not_true, Bool.false_eq_true, if_false]
                  rw [beyond_eq moved, runAt_argument (arithmetic_complete read)]
                  exact later stop moved.1 moved.2 ..

/-- All routines for phrases do at a place what the machine does. -/
structure Runs (tokens : List Token) (bound place : Nat) : Prop where
  factor : FactorRuns tokens bound place
  arithmetic : ArithmeticRuns tokens bound place
  arguments : ArgumentsRun tokens bound place
  operations : OperationsRun tokens bound place

/-- The induction is on the distance to the bound: a routine calls itself or another one at a later
place, or one of lower rank at the same place. -/
theorem runs (whole : bound ≤ tokens.length) (inside : place ≤ bound) :
    Runs tokens bound place := by
  induction distance : bound - place using Nat.strongRecOn generalizing place with
  | ind distance ih =>
      have later : ∀ next, place < next → next ≤ bound → Runs tokens bound next :=
        fun next moved within => ih (bound - next) (by omega) within rfl
      have arguments : ∀ next, place < next → next ≤ bound → ArgumentsRun tokens bound next :=
        fun next moved within => (later next moved within).arguments
      have operations : ∀ next, place < next → next ≤ bound → OperationsRun tokens bound next :=
        fun next moved within => (later next moved within).operations
      have factors : ∀ next, place < next → next ≤ bound → FactorRuns tokens bound next :=
        fun next moved within => (later next moved within).factor
      have factor := FactorRuns.of_later whole inside arguments
      have arithmetic := ArithmeticRuns.of_later inside factor operations
      exact ⟨factor, arithmetic, .of_later whole inside arithmetic arguments,
        .of_later whole inside factors operations⟩

/-!
### Whole phrases
-/

theorem factor_eq (whole : bound ≤ tokens.length) (inside : place ≤ bound) :
    factor tokens bound place = (Phrase.read .factor ⟨place, tokens.drop place, bound⟩).placed :=
  (runs whole inside).factor.eq_read

theorem arithmetic_eq (whole : bound ≤ tokens.length) (inside : place ≤ bound) :
    arithmetic tokens bound place =
      (Phrase.read .arithmetic ⟨place, tokens.drop place, bound⟩).placed :=
  (runs whole inside).arithmetic.eq_read

/-- Behind arithmetic that no operator prolongs, an expression goes on with assignments. -/
theorem assignments_run (whole : bound ≤ tokens.length) (inside : place ≤ bound)
    (complete : (seen tokens bound place).any (·.kind.isArithmetic) = false) (value : Node)
    (assigned : Option Phrase.Pending) :
    runAt tokens bound (.chain value (.whole .expression assigned)) place =
      assignments tokens bound (Phrase.join assigned value) place := by
  induction distance : bound - place using Nat.strongRecOn generalizing place value assigned with
  | ind distance ih =>
      rw [assignments, look_eq whole inside, ok_bind, Nat.add_zero]
      cases here : seen tokens bound place with
      | none =>
          rw [runAt_unseen here]
          rfl
      | some token =>
          have inSight := (seen_eq_some_iff.mp here).1
          have noOperator : ¬ token.kind.isArithmetic = true := by simpa [here] using complete
          by_cases assigns : token.kind = .assign
          · let context : Phrase.Context :=
              .whole .expression (some ⟨Phrase.join assigned value, token⟩)
            have goesOn : (Phrase.State.chain value (.whole .expression assigned)).step token =
                .more (.operand none context) := by
              rw [Phrase.State.step, Phrase.chainStep, if_neg (by simp [noOperator]),
                if_pos ⟨rfl, assigns⟩]
            have following := (runs whole inSight).arithmetic
            have chains : context.Chains := by
              intro same
              cases same
            rw [runAt_more here goesOn, following context chains, advance_eq whole here]
            simp only [Option.any_some, beq_iff_eq, if_pos assigns, ok_bind]
            cases read : arithmetic tokens bound (place + 1) with
            | error stop => rfl
            | ok found =>
                obtain ⟨right, stop⟩ := found
                obtain ⟨moved, within⟩ := following.onward inSight read
                have moved : place < stop := Nat.lt_of_succ_lt moved
                simp only [ok_bind]
                rw [beyond_eq ⟨moved, within⟩]
                exact ih (bound - stop) (by omega) within (arithmetic_complete read) right _ rfl
          · have ends : (Phrase.State.chain value (.whole .expression assigned)).step token =
                .done (Phrase.join assigned value) := by
              rw [Phrase.State.step, Phrase.chainStep, if_neg (by simp [noOperator]),
                if_neg (by simp [assigns])]
            rw [runAt_seen here, ends]
            simp [assigns]

theorem expression_eq (whole : bound ≤ tokens.length) (inside : place ≤ bound) :
    expression tokens bound place =
      (Phrase.read .expression ⟨place, tokens.drop place, bound⟩).placed := by
  have first := (runs whole inside).arithmetic
  refine .trans ?_ (first (.whole .expression none) nofun).symm
  rw [expression]
  cases read : arithmetic tokens bound place with
  | error stop => rfl
  | ok found =>
      obtain ⟨left, stop⟩ := found
      have within := (first.onward inside read).2
      exact (assignments_run whole within (arithmetic_complete read) left none).symm

end Descent

end CLike
