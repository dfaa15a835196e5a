/-
Module: CLike.Proofs.StatementSight
Layer: Proofs
Purpose: A statement does not see its semicolon.  Of the expression in it that changes nothing but
  the error for a semicolon in the list of a call.
Main exports: Phrase.State.Ends, Phrase.State.ends_of_semicolon, failsInList,
  Cursor.expression_in_statement, statementFault, Cursor.asStatement_eq,
  Cursor.statement_of_expression
-/
import CLike.Proofs.FaultPlaces
import CLike.Proofs.LeftLeaning

namespace CLike

open Grammar

/-!
### What a semicolon does

No phrase goes on with a semicolon.  Where it is in sight it ends the phrase or is refused, and where
it is out of sight the phrase ends for want of tokens.
-/

namespace Phrase

/-- Whether an argument can follow at once. -/
def State.awaitsArgument : State → Bool
  | .between expecting _ _ => expecting
  | _ => false

theorem operandStep_semicolon {semicolon : Token} (ends : semicolon.kind = .semicolon)
    (waiting : Option Pending) (context : Context) :
    operandStep waiting context semicolon = .fail (.unsupportedFactor semicolon.text) := by
  simp [operandStep, ends]

theorem betweenStep_semicolon {semicolon : Token} (ends : semicolon.kind = .semicolon)
    (expecting : Bool) (call : OpenCall) (outer : Context) :
    betweenStep expecting call outer semicolon =
      .fail (if expecting then .unsupportedFactor semicolon.text else .adjacentArguments) := by
  cases expecting with
  | true => simp [betweenStep, ends, operandStep_semicolon ends]
  | false => simp [betweenStep, ends]

/-- The answer to a semicolon in sight beside the answer to one that is not. -/
inductive State.Ends (state : State) (semicolon : Token) : Prop where
  | complete {phrase : Node} (inSight : state.step semicolon = .done phrase)
      (outOfSight : state.finish (some semicolon) = .ok phrase) : Ends state semicolon
  | operand (noList : state.awaitsArgument = false)
      (inSight : state.step semicolon = .fail (.unsupportedFactor semicolon.text))
      (outOfSight : state.finish (some semicolon) = .error (.unsupportedFactor semicolon.text)) :
      Ends state semicolon
  | argument (list : state.awaitsArgument = true)
      (inSight : state.step semicolon = .fail (.unsupportedFactor semicolon.text))
      (outOfSight : state.finish (some semicolon) = .error .unclosedCall) : Ends state semicolon
  | adjacent (inSight : state.step semicolon = .fail .adjacentArguments)
      (outOfSight : state.finish (some semicolon) = .error .unclosedCall) : Ends state semicolon

theorem State.ends_of_settled {state : State} {phrase : Node} {context : Context}
    {semicolon : Token} (settled : state.settled? = some (phrase, context))
    (ends : semicolon.kind = .semicolon) : state.Ends semicolon := by
  have noCall : semicolon.kind ≠ .leftParen := by simp [ends]
  have step := step_of_settled? settled noCall
  have finish := finish_of_settled? settled (some semicolon)
  have noOperator : semicolon.kind.isArithmetic = false := by
    rw [ends]
    rfl
  cases context with
  | whole extent assigned =>
      have noAssign : semicolon.kind ≠ .assign := by simp [ends]
      have inSight : state.step semicolon = .done (join assigned phrase) := by
        rw [step]
        exact chainStep_whole_iff.mpr ⟨⟨fun _ => noOperator, fun _ => noAssign⟩, rfl⟩
      exact .complete inSight finish
  | argument call outer =>
      have inSight : state.step semicolon = .fail .adjacentArguments := by
        rw [step, chainStep, noOperator]
        exact betweenStep_semicolon ends false _ _
      exact .adjacent inSight finish

theorem State.ends_of_semicolon (state : State) {semicolon : Token}
    (ends : semicolon.kind = .semicolon) : state.Ends semicolon := by
  cases state with
  | operand waiting context => exact .operand rfl (operandStep_semicolon ends _ _) rfl
  | named name waiting context => exact ends_of_settled rfl ends
  | chain phrase context => exact ends_of_settled rfl ends
  | between expecting call outer =>
      have refused := betweenStep_semicolon ends expecting call outer
      cases expecting with
      | true => exact .argument rfl refused rfl
      | false => exact .adjacent refused rfl

/-- Tokens that belong to a phrase are no semicolons. -/
theorem State.unended_of_feed {state next : State} {tokens : List Token}
    (fed : state.feed tokens = some next) : ∀ token ∈ tokens, token.kind ≠ .semicolon := by
  induction tokens generalizing state with
  | nil => exact List.forall_mem_nil _
  | cons token rest ih =>
      rw [feed] at fed
      split at fed
      · next goesOn =>
          refine List.forall_mem_cons.mpr ⟨fun ends => ?_, ih fed⟩
          cases state.ends_of_semicolon ends with
          | complete inSight => cases inSight.symm.trans goesOn
          | operand _ inSight => cases inSight.symm.trans goesOn
          | argument _ inSight => cases inSight.symm.trans goesOn
          | adjacent inSight => cases inSight.symm.trans goesOn
      · cases fed

end Phrase

/-!
### Expressions in statements

The one error that the semicolon changes can be told from the tokens.
-/

/-- Whether an argument can follow at once behind some tokens of a phrase, be it the first one of a
call or one behind a comma. -/
def argumentFollows (taken : List Token) : Bool :=
  taken.getLast?.any fun last => last.kind == .leftParen || last.kind == .comma

/-- Whether an error is raised by the list of a call itself, at a semicolon: in front of it stands an
argument, or there should be one in its place. -/
def failsInList (tokens : List Token) (place : Nat) (cause : GrammarError) : Bool :=
  tokens[place]?.any (·.kind == .semicolon) &&
    match cause with
    | .adjacentArguments => true
    | .unsupportedFactor _ => argumentFollows (tokens.take place)
    | _ => false

/-- The error of an expression as a statement reports it. -/
def causeInStatement (tokens : List Token) (place : Nat) (cause : GrammarError) : GrammarError :=
  if failsInList tokens place cause then .unclosedCall else cause

namespace Phrase

theorem State.Behind.awaitsArgument_eq {state : State} {last : Token} (behind : state.Behind last) :
    state.awaitsArgument = (last.kind == .leftParen || last.kind == .comma) := by
  cases behind with
  | mark isMark =>
      have noMark : ∀ {kind : Kind}, kind ≠ .assign → kind.isArithmetic = false →
          last.kind ≠ kind := by
        intro kind noAssign noOperator
        rcases isMark with operator | assigns
        · exact Kind.ne_of_member operator noOperator
        · exact fun same => noAssign (same.symm.trans assigns)
      have noOpening : last.kind ≠ .leftParen := noMark (by decide) rfl
      have noComma : last.kind ≠ .comma := noMark (by decide) rfl
      simp [State.awaitsArgument, noOpening, noComma]
  | name isName => simp [State.awaitsArgument, isName]
  | ending ends => rcases ends with (kind | kind | kind) | kind <;> simp [State.awaitsArgument, kind]
  | list opens => rcases opens with kind | kind <;> simp [State.awaitsArgument, kind]

/-- What a state remembers of its last token tells whether an argument can follow. -/
theorem State.awaitsArgument_feed {extent : Extent} {state : State} {taken : List Token}
    (fed : (State.initial extent).feed taken = some state) :
    state.awaitsArgument = argumentFollows taken := by
  rw [argumentFollows]
  cases isLast : taken.getLast? with
  | none =>
      obtain rfl := List.getLast?_eq_none_iff.mp isLast
      obtain rfl := Option.some.inj fed
      rfl
  | some last => exact (behind_feed fed isLast).awaitsArgument_eq

/-- Where no semicolon is next, the bound of a statement is of no account. -/
theorem State.Stopped.run_eq {state : State} {bound fence place : Nat} {rest : List Token}
    {outcome : Except GrammarError Node} (stopped : state.Stopped bound place rest outcome)
    (inSight : ∀ token ∈ rest.head?, place < bound ∧ place < fence) :
    state.run fence place rest = ⟨outcome, ⟨place, rest, fence⟩⟩ := by
  cases stopped with
  | ended => rfl
  | unseen outOfSight => exact absurd (inSight _ rfl).1 outOfSight
  | done _ ends => rw [run, if_pos (inSight _ rfl).2, ends]
  | fail _ refused => rw [run, if_pos (inSight _ rfl).2, refused]

theorem State.Stopped.eq_of_done {state : State} {bound place : Nat} {token : Token}
    {later : List Token} {outcome : Except GrammarError Node} {phrase : Node}
    (stopped : state.Stopped bound place (token :: later) outcome) (inSight : place < bound)
    (ends : state.step token = .done phrase) : outcome = .ok phrase := by
  cases stopped with
  | unseen outOfSight => exact absurd inSight outOfSight
  | done _ also => exact congrArg Except.ok (Step.done.inj (also.symm.trans ends))
  | fail _ refused => cases refused.symm.trans ends

theorem State.Stopped.eq_of_fail {state : State} {bound place : Nat} {token : Token}
    {later : List Token} {outcome : Except GrammarError Node} {cause : GrammarError}
    (stopped : state.Stopped bound place (token :: later) outcome) (inSight : place < bound)
    (refused : state.step token = .fail cause) : outcome = .error cause := by
  cases stopped with
  | unseen outOfSight => exact absurd inSight outOfSight
  | done _ ends => cases ends.symm.trans refused
  | fail _ also => exact congrArg Except.error (Step.fail.inj (also.symm.trans refused))

/-- Where a semicolon is next, the answer to the end of the sight is the answer to the semicolon, but
perhaps for another reason. -/
theorem State.Stopped.finish_semicolon {extent : Extent} {state : State} {taken later : List Token}
    {semicolon : Token} {bound : Nat} {outcome : Except GrammarError Node}
    (stopped : state.Stopped bound taken.length (semicolon :: later) outcome)
    (inSight : taken.length < bound) (fed : (State.initial extent).feed taken = some state)
    (ends : semicolon.kind = .semicolon) :
    state.finish (some semicolon) =
      outcome.mapError (causeInStatement (taken ++ semicolon :: later) taken.length) := by
  have before : (taken ++ semicolon :: later).take taken.length = taken := List.take_left
  have awaits := awaitsArgument_feed fed
  cases state.ends_of_semicolon ends with
  | complete complete finished =>
      rw [stopped.eq_of_done inSight complete]
      exact finished
  | operand noList refused finished =>
      rw [stopped.eq_of_fail inSight refused, finished]
      apply congrArg Except.error
      simp [causeInStatement, failsInList, before, ← awaits, noList]
  | argument list refused finished =>
      rw [stopped.eq_of_fail inSight refused, finished]
      apply congrArg Except.error
      simp [causeInStatement, failsInList, ends, before, ← awaits, list]
  | adjacent refused finished =>
      rw [stopped.eq_of_fail inSight refused, finished]
      apply congrArg Except.error
      simp [causeInStatement, failsInList, ends]

end Phrase

/-- Where no semicolon is next, a statement reports what the expression reports. -/
theorem mapError_causeInStatement {tokens : List Token} {place : Nat}
    (other : ∀ token ∈ tokens[place]?, token.kind ≠ .semicolon)
    (outcome : Except GrammarError Node) :
    outcome.mapError (causeInStatement tokens place) = outcome := by
  have unended : tokens[place]?.any (·.kind == .semicolon) = false :=
    (Option.any_eq_false ..).mpr fun token here => beq_false_of_ne (other token here)
  cases outcome with
  | ok node => rfl
  | error cause => simp [Except.mapError, causeInStatement, failsInList, unended]

namespace Cursor

/-- Read as part of a statement an expression ends at the same place and with the same result, unless
an error is raised by the list of a call at the semicolon. -/
theorem expression_in_statement (tokens : List Token) :
    let direct := (ofTokens tokens).expression
    let fence := (ofTokens tokens).semicolonIndex
    ((ofTokens tokens).withBound fence).expression =
      ⟨direct.outcome.mapError (causeInStatement tokens direct.cursor.position),
        direct.cursor.withBound fence⟩ := by
  intro direct fence
  obtain ⟨taken, rest, state, whole, fed, stop, stopped⟩ :=
    Phrase.read_stopped .expression (ofTokens tokens)
  change tokens = taken ++ rest at whole
  change direct.cursor = ⟨0 + taken.length, rest, tokens.length⟩ at stop
  change state.Stopped tokens.length (0 + taken.length) rest direct.outcome at stopped
  rw [Nat.zero_add] at stop stopped
  have clean := Phrase.State.unended_of_feed fed
  have counted : fence = taken.length + rest.findIdx (·.kind == .semicolon) :=
    (semicolonIndex_append whole clean).trans (Nat.zero_add _)
  have enclosed : ((ofTokens tokens).withBound fence).expression =
      state.run fence taken.length rest := by
    have behind : 0 + taken.length ≤ fence := by omega
    have passed := Phrase.State.run_feed fed behind rest
    rw [Nat.zero_add, ← whole] at passed
    exact passed
  rw [enclosed, stop]
  -- No token before this place is a semicolon, so the two readings can part at the next one only.
  cases rest with
  | nil =>
      rw [stopped.run_eq, mapError_causeInStatement]
      · rfl
      · simp [whole]
      · rintro token ⟨⟩
  | cons token later =>
      have inSight : taken.length < tokens.length := by simp [whole]
      by_cases ends : token.kind = .semicolon
      · have here : fence = taken.length := by simpa [List.findIdx_cons, ends] using counted
        rw [Phrase.State.run, if_neg (by omega), stopped.finish_semicolon inSight fed ends, whole]
        rfl
      · have behind : taken.length < fence := by
          rw [counted, List.findIdx_cons, beq_false_of_ne ends]
          simp
        rw [stopped.run_eq, mapError_causeInStatement]
        · rfl
        · simpa [whole] using ends
        · rintro next ⟨⟩
          exact ⟨inSight, behind⟩

end Cursor

/-!
### What a statement makes of an expression

The check of an expression looks at its root and, for an assignment, at its first two tokens.
-/

/-- Whether some tokens start with a name and an `=`. -/
def assignsToName : List Token → Bool
  | name :: operator :: _ => name.kind == .identifier && operator.kind == .assign
  | _ => false

/-- Whether an expression can stand as a statement: it is a call, or an assignment to a name. -/
def canStand (taken : List Token) (node : Node) : Bool :=
  node.isCall || node.isAssignment && assignsToName taken

/-- What keeps an expression from being a statement.  That it is neither a call nor an assignment
comes first, what it assigns to comes second, and that its semicolon is missing comes last. -/
def statementFault (taken : List Token) (node : Node) : GrammarError :=
  if !node.isCall && !node.isAssignment then .danglingExpression
  else if canStand taken node then .missingSemicolon
  else if taken[1]?.any (·.kind == .assign) then .badAssignment
  else .definitionWithoutType

/-- Whether an expression that was read up to a place is a statement with the token there. -/
def completesStatement (tokens : List Token) (place : Nat) (node : Node) : Bool :=
  canStand (tokens.take place) node && tokens[place]?.any (·.kind == .semicolon)

namespace Cursor

theorem asStatement_eq {taken : List Token} {node : Node} (expression : Expression taken node) :
    asStatement taken node =
      if canStand taken node then .ok node else .error (statementFault taken node) := by
  have isCall := expression.call_iff
  have isAssignment := expression.assignment_iff
  unfold asStatement
  by_cases assigns : node.token.kind = .assign
  · have assignment := isAssignment.mp assigns
    have noCall : node.isCall = false := by
      rw [assigns] at isCall
      apply Bool.eq_false_iff.mpr
      intro call
      cases isCall.mpr call
    obtain ⟨head, second, rest, rfl, -, -, check⟩ := expression.checkAssignment_eq assigns
    rw [if_pos assigns, check]
    by_cases second : second.kind = .assign
    · by_cases name : head.kind = .identifier
      · simp [canStand, assignsToName, assignment, second, name, Except.map]
      · simp [canStand, assignsToName, statementFault, assignment, noCall, second, name, Except.map]
    · simp [canStand, assignsToName, statementFault, assignment, noCall, second, Except.map]
  · have noAssignment := Bool.eq_false_iff.mpr (mt isAssignment.mpr assigns)
    rw [if_neg assigns]
    by_cases call : node.token.kind = .call
    · simp [canStand, call, isCall.mp call]
    · have noCall := Bool.eq_false_iff.mpr (mt isCall.mpr call)
      simp [canStand, statementFault, call, noCall, noAssignment]

/-- An expression that can stand lacks nothing but its semicolon. -/
theorem statementFault_of_canStand {taken : List Token} {node : Node}
    (stands : canStand taken node = true) : statementFault taken node = .missingSemicolon := by
  rcases Bool.or_eq_true_iff.mp stands with call | assignment
  · simp [statementFault, stands, call]
  · obtain ⟨assigns, -⟩ := Bool.and_eq_true_iff.mp assignment
    simp [statementFault, stands, assigns]

theorem terminated_ok (node : Node) (cursor : Cursor) :
    terminated ⟨.ok node, cursor⟩ =
      if cursor.rest.head?.any (·.kind == .semicolon) then ⟨.ok node, cursor.advance⟩
      else ⟨.error .missingSemicolon, cursor⟩ := by
  rcases cursor with ⟨position, rest, bound⟩
  cases rest with
  | nil => rfl
  | cons token later => simp [terminated]

/-- A statement whose first token is no type is the expression that would be read from there by
itself, judged and terminated. -/
theorem statement_untyped {tokens : List Token}
    (untyped : ∀ first ∈ tokens.head?, first.kind.isType = false) :
    let direct := (ofTokens tokens).expression
    (ofTokens tokens).statement =
      terminated ⟨(direct.outcome.mapError (causeInStatement tokens direct.cursor.position)).bind
        (asStatement (tokens.take direct.cursor.position)), direct.cursor⟩ := by
  intro direct
  have kept : direct.cursor.bound = tokens.length :=
    (Keeps.run tokens.length (.initial .expression) 0 tokens).bound_eq
  have back : (direct.cursor.withBound (ofTokens tokens).semicolonIndex).withBound tokens.length =
      direct.cursor := by
    rw [← kept]
    rfl
  have start : ∀ first ∈ (ofTokens tokens).rest.head?, first.kind.isType = false := untyped
  rw [statement_of_untyped start, expressionStatement, expression_in_statement]
  exact congrArg (fun cursor => terminated ⟨_, cursor⟩) back

/-- An expression that is read in front of a statement's end is judged and terminated there. -/
theorem terminated_asStatement {tokens : List Token} {node : Node} {cursor : Cursor}
    (expression : Expression (tokens.take cursor.position) node)
    (placed : cursor.rest = tokens.drop cursor.position) :
    let statement := terminated ⟨asStatement (tokens.take cursor.position) node, cursor⟩
    (completesStatement tokens cursor.position node = true →
      statement.outcome = .ok node ∧ statement.cursor.position = cursor.position + 1) ∧
    (completesStatement tokens cursor.position node = false →
      statement.outcome = .error (statementFault (tokens.take cursor.position) node) ∧
        statement.cursor.position = cursor.position) := by
  have next : cursor.rest.head? = tokens[cursor.position]? := by rw [placed, List.head?_drop]
  intro statement
  cases stands : canStand (tokens.take cursor.position) node with
  | false =>
      have judged : statement =
          ⟨.error (statementFault (tokens.take cursor.position) node), cursor⟩ := by
        simp only [statement, asStatement_eq expression, stands]
        rfl
      simp [completesStatement, stands, judged]
  | true =>
      have judged : statement = terminated ⟨.ok node, cursor⟩ := by
        simp only [statement, asStatement_eq expression, stands, if_true]
      rw [terminated_ok, next] at judged
      cases ends : tokens[cursor.position]?.any (·.kind == .semicolon) with
      | false => simp [completesStatement, stands, ends, judged, statementFault_of_canStand stands]
      | true =>
          obtain ⟨semicolon, here, -⟩ := (Option.any_eq_true ..).mp ends
          obtain ⟨rest, shape⟩ := List.head?_eq_some_iff.mp (next.trans here)
          simp [completesStatement, stands, ends, judged, advance_cons shape]

/-- A statement whose first token is no type is what the expression from there makes of it.  If the
expression can be read, the statement is the same tree, and ends behind the token behind it, exactly
when that token is a semicolon and the tree a call or an assignment to a name; otherwise it fails
where the expression ends.  If the expression cannot be read, the statement fails at the same place,
and for the same reason unless the semicolon stands in the list of a call. -/
theorem statement_of_expression {tokens : List Token}
    (untyped : ∀ first ∈ tokens.head?, first.kind.isType = false) :
    let direct := (ofTokens tokens).expression
    let place := direct.cursor.position
    let statement := (ofTokens tokens).statement
    (∀ node, direct.outcome = .ok node →
      ((statement.outcome = .ok node ∧ statement.cursor.position = place + 1) ↔
        completesStatement tokens place node = true) ∧
      (completesStatement tokens place node = false →
        statement.outcome = .error (statementFault (tokens.take place) node) ∧
          statement.cursor.position = place)) ∧
    (∀ cause, direct.outcome = .error cause →
      statement.outcome = .error (causeInStatement tokens place cause) ∧
        statement.cursor.position = place) := by
  intro direct place statement
  have judged : statement = terminated
      ⟨(direct.outcome.mapError (causeInStatement tokens place)).bind
        (asStatement (tokens.take place)), direct.cursor⟩ :=
    statement_untyped untyped
  constructor
  · intro node read
    obtain ⟨taken, shape, moved, derived⟩ := Phrase.read_sound read
    have expression : Expression (tokens.take place) node := by
      have before : tokens.take place = taken := by
        change tokens = taken ++ direct.cursor.rest at shape
        change place = 0 + taken.length at moved
        rw [moved, shape, Nat.zero_add, List.take_left]
      rw [before]
      exact derived
    have forward : (ofTokens tokens).LeadsTo direct.cursor := ⟨taken, shape, moved⟩
    obtain ⟨completes, fails⟩ := terminated_asStatement expression (forward.rest_eq_drop rfl)
    rw [judged, read]
    refine ⟨⟨fun success => ?_, completes⟩, fails⟩
    apply Bool.of_not_eq_false
    intro incomplete
    cases success.1.symm.trans (fails incomplete).1
  · intro cause failed
    rw [judged, failed]
    exact ⟨rfl, rfl⟩

/-- A statement is read, one assigns to a number, and one leaves the list of its call open. -/
theorem statement_of_expression_each_way :
    let read := [.identifier "a", .ofText .assign "=", .integer 5, .ofText .semicolon ";"]
    let misplaced := [.integer 5, .ofText .assign "=", .identifier "a", .ofText .semicolon ";"]
    let unclosed := [.identifier "f", .ofText .leftParen "(", .ofText .semicolon ";"]
    let direct (tokens : List Token) := (ofTokens tokens).expression
    let statement (tokens : List Token) := (ofTokens tokens).statement
    let assignment (left right : Token) :=
      Node.operation (.ofText .assign "=") (.leaf left) (.leaf right)
    (direct read).outcome = .ok (assignment (.identifier "a") (.integer 5)) ∧
      (statement read).outcome = .ok (assignment (.identifier "a") (.integer 5)) ∧
      (statement read).cursor.position = 4 ∧
    (direct misplaced).outcome = .ok (assignment (.integer 5) (.identifier "a")) ∧
      (statement misplaced).outcome = .error .badAssignment ∧
      (statement misplaced).cursor.position = 3 ∧
    (direct unclosed).outcome = .error (.unsupportedFactor ";") ∧
      (statement unclosed).outcome = .error .unclosedCall ∧
      (statement unclosed).cursor.position = 2 := by
  intro read misplaced unclosed direct statement assignment
  have readOutcome : (direct read).outcome =
      .ok (assignment (.identifier "a") (.integer 5)) := rfl
  have misplacedOutcome : (direct misplaced).outcome =
      .ok (assignment (.integer 5) (.identifier "a")) := rfl
  have unclosedOutcome : (direct unclosed).outcome = .error (.unsupportedFactor ";") := rfl
  have untypedName : ∀ first ∈ read.head?, first.kind.isType = false := by
    rintro first ⟨⟩
    rfl
  have untypedNumber : ∀ first ∈ misplaced.head?, first.kind.isType = false := by
    rintro first ⟨⟩
    rfl
  have untypedCallee : ∀ first ∈ unclosed.head?, first.kind.isType = false := by
    rintro first ⟨⟩
    rfl
  obtain ⟨isRead, readStops⟩ :=
    ((statement_of_expression untypedName).1 _ readOutcome).1.mpr (by decide)
  obtain ⟨isMisplaced, misplacedStops⟩ :=
    ((statement_of_expression untypedNumber).1 _ misplacedOutcome).2 (by decide)
  obtain ⟨isUnclosed, unclosedStops⟩ :=
    (statement_of_expression untypedCallee).2 _ unclosedOutcome
  exact ⟨readOutcome, isRead, readStops, misplacedOutcome, isMisplaced, misplacedStops,
    unclosedOutcome, isUnclosed, unclosedStops⟩

end Cursor

end CLike
