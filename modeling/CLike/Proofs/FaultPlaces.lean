/-
Module: CLike.Proofs.FaultPlaces
Layer: Proofs
Purpose: Errors carry no position; the cursor of the call that failed is the place that its error
  is about.
Main exports: GrammarError.DescribesPlace, Cursor.Bounded.read, Cursor.Enclosed.parameters,
  Cursor.Enclosed.declaration, Cursor.Enclosed.statementBody, Cursor.Settled.statement,
  Cursor.Settled.program, Session.perform_fails_in_place
-/
import CLike.Proofs.Bounds
import CLike.Proofs.PhraseLanguage
import CLike.Proofs.StatementLanguage

namespace CLike

/-- A statement can start where a reading does, and behind any semicolon that it passes. -/
def StatementStarts (tokens : List Token) (origin first : Nat) : Prop :=
  first = origin ∨ origin < first ∧
    ∃ semicolon, tokens[first - 1]? = some semicolon ∧ semicolon.kind = .semicolon

/-- What an error says about the place at which the reading of a phrase or statement has stopped,
where `first` is the place at which it started. -/
inductive GrammarError.DescribesPlace (tokens : List Token) (first place : Nat) :
    GrammarError → Prop where
  | unsupportedFactor {token : Token} (here : tokens[place]? = some token) :
      DescribesPlace tokens first place (.unsupportedFactor token.text)
  | unexpectedEndOfInput (ended : place = tokens.length) :
      DescribesPlace tokens first place .unexpectedEndOfInput
  | unclosedCall (ended : StatementEnds tokens place) :
      DescribesPlace tokens first place .unclosedCall
  | unclosedFunctionDeclaration (ended : StatementEnds tokens place) :
      DescribesPlace tokens first place .unclosedFunctionDeclaration
  | adjacentArguments {token : Token} (here : tokens[place]? = some token)
      (noClosing : token.kind ≠ .rightParen) (noComma : token.kind ≠ .comma) :
      DescribesPlace tokens first place .adjacentArguments
  | missingSemicolon (unended : ∀ token, tokens[place]? = some token → token.kind ≠ .semicolon) :
      DescribesPlace tokens first place .missingSemicolon
  | danglingDeclaration {type : Token} (here : tokens[place]? = some type)
      (isType : type.kind.isType = true) (last : place + 1 = tokens.length) :
      DescribesPlace tokens first place .danglingDeclaration
  | badDeclaration {type next : Token} (here : tokens[place]? = some type)
      (isType : type.kind.isType = true) (behind : tokens[place + 1]? = some next)
      (noName : next.kind ≠ .identifier) :
      DescribesPlace tokens first place .badDeclaration
  /-- A parenthesis follows, but not at once. -/
  | danglingFunctionDeclaration {type name next opening : Token} {distance : Nat}
      (behindName : place = first + 2) (here : tokens[first]? = some type)
      (isType : type.kind.isType = true) (named : tokens[first + 1]? = some name)
      (isName : name.kind = .identifier) (following : tokens[place]? = some next)
      (noOpening : next.kind ≠ .leftParen)
      (later : tokens[place + 1 + distance]? = some opening) (opens : opening.kind = .leftParen)
      (unended : ∀ index token, place ≤ index → index ≤ place + 1 + distance →
        tokens[index]? = some token → token.kind ≠ .semicolon) :
      DescribesPlace tokens first place .danglingFunctionDeclaration
  | parameterWithoutType {token : Token} (here : tokens[place]? = some token)
      (other : token.kind ∉
        [Kind.intType, .charType, .rightParen, .comma, .semicolon]) :
      DescribesPlace tokens first place .parameterWithoutType
  /-- An expression ends here that is neither an assignment nor a call. -/
  | danglingExpression {node : Node}
      (read : Phrase.Extent.expression.Spans tokens first place node)
      (noAssignment : node.token.kind ≠ .assign) (noCall : node.token.kind ≠ .call) :
      DescribesPlace tokens first place .danglingExpression
  /-- An assignment ends here whose left side is a single token, and no name. -/
  | badAssignment {node : Node} {single operator : Token}
      (read : Phrase.Extent.expression.Spans tokens first place node)
      (assignment : node.token.kind = .assign) (starts : tokens[first]? = some single)
      (noName : single.kind ≠ .identifier) (next : tokens[first + 1]? = some operator)
      (assigns : operator.kind = .assign) :
      DescribesPlace tokens first place .badAssignment
  /-- An assignment ends here whose left side is longer than a token, and starts with no type. -/
  | definitionWithoutType {node : Node} {start second : Token}
      (read : Phrase.Extent.expression.Spans tokens first place node)
      (assignment : node.token.kind = .assign) (starts : tokens[first]? = some start)
      (noType : start.kind.isType = false) (next : tokens[first + 1]? = some second)
      (longer : second.kind ≠ .assign) :
      DescribesPlace tokens first place .definitionWithoutType

/-!
### Phrases

A phrase fails on a token that is no operand, on the second of two arguments, or for want of tokens.
-/

namespace Phrase

theorem operandStep_fail {waiting : Option Pending} {context : Context} {token : Token}
    {cause : GrammarError} (refused : operandStep waiting context token = .fail cause) :
    cause = .unsupportedFactor token.text := by
  unfold operandStep at refused
  split at refused
  · cases refused
  · split at refused
    · cases refused
    · cases refused
      rfl

/-- What makes a token fail between arguments or anywhere else. -/
def Refuses (token : Token) (cause : GrammarError) : Prop :=
  cause = .unsupportedFactor token.text ∨
    cause = .adjacentArguments ∧ token.kind ≠ .rightParen ∧ token.kind ≠ .comma

theorem betweenStep_fail {expecting : Bool} {call : OpenCall} {outer : Context} {token : Token}
    {cause : GrammarError} (refused : betweenStep expecting call outer token = .fail cause) :
    Refuses token cause := by
  unfold betweenStep at refused
  split at refused
  · cases refused
  · next noClosing =>
      split at refused
      · cases refused
      · next noComma =>
          split at refused
          · exact .inl (operandStep_fail refused)
          · cases refused
            exact .inr ⟨rfl, noClosing, noComma⟩

theorem chainStep_fail {phrase : Node} {context : Context} {token : Token} {cause : GrammarError}
    (refused : chainStep phrase context token = .fail cause) : Refuses token cause := by
  cases context with
  | whole extent assigned =>
      rw [chainStep] at refused
      split at refused
      · cases refused
      · split at refused
        · cases refused
        · cases refused
  | argument call outer =>
      rw [chainStep] at refused
      split at refused
      · cases refused
      · exact betweenStep_fail refused

theorem State.step_fail {state : State} {token : Token} {cause : GrammarError}
    (refused : state.step token = .fail cause) : Refuses token cause := by
  cases state with
  | operand waiting context => exact .inl (operandStep_fail refused)
  | named name waiting context =>
      rw [step] at refused
      split at refused
      · cases refused
      · exact chainStep_fail refused
  | chain phrase context => exact chainStep_fail refused
  | between expecting call outer => exact betweenStep_fail refused

theorem State.finishChain_error {phrase : Node} {context : Context} {cause : GrammarError}
    (failed : finishChain phrase context = .error cause) : cause = .unclosedCall := by
  cases context with
  | whole extent assigned => cases failed
  | argument call outer =>
      cases failed
      rfl

/-- Where no token is in sight, an operand is missing or a call is not closed. -/
theorem State.finish_error {state : State} {beyond? : Option Token} {cause : GrammarError}
    (failed : state.finish beyond? = .error cause) :
    cause = (beyond?.elim .unexpectedEndOfInput fun token => .unsupportedFactor token.text) ∨
      cause = .unclosedCall := by
  cases state with
  | operand waiting context =>
      cases beyond? with
      | none =>
          cases failed
          exact .inl rfl
      | some token =>
          cases failed
          exact .inl rfl
  | named name waiting context => exact .inr (finishChain_error failed)
  | chain phrase context => exact .inr (finishChain_error failed)
  | between expecting call outer =>
      cases failed
      exact .inr rfl

end Phrase

namespace Cursor

variable {tokens : List Token} {cursor : Cursor} {first : Nat} {cause : GrammarError}

/-- The reading of a phrase fails at a place that its error describes. -/
theorem Bounded.read {extent : Phrase.Extent} (bounded : cursor.Bounded tokens)
    (failed : (Phrase.read extent cursor).outcome = .error cause) :
    cause.DescribesPlace tokens first (Phrase.read extent cursor).cursor.position := by
  have kept := Keeps.run cursor.bound (.initial extent) cursor.position cursor.rest
  have reached : (Phrase.read extent cursor).cursor.Bounded tokens := bounded.of_keeps kept
  obtain ⟨taken, rest, state, -, -, stop, stopped⟩ := Phrase.read_stopped extent cursor
  rw [failed] at stopped
  rw [stop] at reached ⊢
  generalize outcome : Except.error cause = found at stopped
  cases stopped with
  | ended =>
      rcases Phrase.State.finish_error outcome.symm with rfl | rfl
      · exact .unexpectedEndOfInput (reached.position_of_nil rfl)
      · exact .unclosedCall (.inl (reached.position_of_nil rfl))
  | unseen outOfSight =>
      rcases Phrase.State.finish_error outcome.symm with rfl | rfl
      · exact .unsupportedFactor (reached.getElem?_of_rest rfl)
      · exact .unclosedCall (reached.ends_of_unseen (if_neg outOfSight))
  | done => cases outcome
  | fail inSight refused =>
      obtain rfl := Except.error.inj outcome
      rcases Phrase.State.step_fail refused with rfl | ⟨rfl, noClosing, noComma⟩
      · exact .unsupportedFactor (reached.getElem?_of_rest rfl)
      · exact .adjacentArguments (reached.getElem?_of_rest rfl) noClosing noComma

/-!
### Declarations

A declaration is read as part of a statement only, so whatever it sees comes before the semicolon.
-/

theorem Enclosed.parameters {expecting : Bool} (enclosed : cursor.Enclosed tokens)
    (failed : (cursor.parameters expecting).outcome = .error cause) :
    cause.DescribesPlace tokens first (cursor.parameters expecting).cursor.position := by
  fun_induction Cursor.parameters expecting cursor with
  | case1 expecting cursor unseen =>
      cases failed
      exact .unclosedFunctionDeclaration (enclosed.ends_of_unseen unseen)
  | case2 => cases failed
  | case3 expecting cursor token seen _ _ ih =>
      exact ih (enclosed.of_keeps (.advance seen)) failed
  | case4 expecting cursor token seen noClosing noComma =>
      cases failed
      exact .adjacentArguments (enclosed.getElem?_of_peek? seen) noClosing noComma
  | case5 expecting cursor token seen _ _ _ _ ih =>
      have behind := (enclosed.of_keeps (.advance seen)).of_keeps (.skip .identifier _)
      exact ih behind (Reply.outcome_map_eq_error_iff.mp failed)
  | case6 expecting cursor token seen noClosing noComma _ untyped =>
      cases failed
      refine .parameterWithoutType (enclosed.getElem?_of_peek? seen) ?_
      have noSemicolon := enclosed.kind_ne_semicolon seen
      simp only [List.mem_cons, List.not_mem_nil, or_false, not_or]
      exact ⟨fun int => untyped (.inl int), fun char => untyped (.inr char), noClosing, noComma,
        noSemicolon⟩

/-- Neither the type nor the name of a declaration is the parenthesis that is in sight. -/
theorem Bounded.opening_behind_name (bounded : cursor.Bounded tokens) {type name : Token}
    (here : tokens[cursor.position]? = some type) (isType : type.kind.isType = true)
    (named : tokens[cursor.position + 1]? = some name) (isName : name.kind = .identifier)
    (paren : cursor.visible.any (·.kind == .leftParen) = true) :
    ∃ index opening, cursor.position + 2 ≤ index ∧ index < cursor.bound ∧
      tokens[index]? = some opening ∧ opening.kind = .leftParen := by
  obtain ⟨index, opening, started, inSight, found, opens⟩ := bounded.exists_of_visible paren
  have notType : index ≠ cursor.position := by
    rintro rfl
    rw [here] at found
    rw [Option.some.inj found, opens] at isType
    cases isType
  have notName : index ≠ cursor.position + 1 := by
    rintro rfl
    rw [named] at found
    rw [← Option.some.inj found, isName] at opens
    cases opens
  exact ⟨index, opening, by omega, inSight, found, opens⟩

/-- Where a function is declared, the parenthesis in sight has to come at once. -/
theorem Enclosed.functionDeclaration {type name : Token} (enclosed : cursor.Enclosed tokens)
    (behindName : cursor.position = first + 2) (here : tokens[first]? = some type)
    (isType : type.kind.isType = true) (named : tokens[first + 1]? = some name)
    (isName : name.kind = .identifier)
    (opening : ∃ index token, cursor.position ≤ index ∧ index < cursor.bound ∧
      tokens[index]? = some token ∧ token.kind = .leftParen)
    (failed : (cursor.functionDeclaration type name).outcome = .error cause) :
    cause.DescribesPlace tokens first (cursor.functionDeclaration type name).cursor.position := by
  unfold Cursor.functionDeclaration at failed ⊢
  split at failed
  · next present =>
      rw [if_pos present]
      obtain ⟨token, rest, -, seen, -⟩ := exists_of_any_peek? present
      have behind := enclosed.of_keeps (.advance seen)
      exact behind.parameters (Reply.outcome_map_eq_error_iff.mp failed)
  · next absent =>
      rw [if_neg absent]
      cases failed
      obtain ⟨index, token, started, inSight, found, opens⟩ := opening
      have inside := (List.getElem?_eq_some_iff.mp found).1
      have within : cursor.position < tokens.length := Nat.lt_of_le_of_lt started inside
      obtain ⟨next, following⟩ : ∃ next, tokens[cursor.position]? = some next :=
        ⟨_, List.getElem?_eq_getElem within⟩
      have noOpening : next.kind ≠ .leftParen := by
        intro isOpening
        have seen : cursor.peek? = some next := by
          rw [peek?, if_pos (Nat.lt_of_le_of_lt started inSight), enclosed.head?_eq]
          exact following
        simp [seen, isOpening] at absent
      obtain ⟨distance, rfl⟩ : ∃ distance, index = cursor.position + 1 + distance := by
        apply Nat.exists_eq_add_of_le
        apply Nat.lt_of_le_of_ne started
        rintro rfl
        exact noOpening (Option.some.inj (following.symm.trans found) ▸ opens)
      refine .danglingFunctionDeclaration behindName here isType named isName following noOpening
        found opens ?_
      intro place token behind before
      exact enclosed.unended place token behind (Nat.lt_of_le_of_lt before inSight)

theorem Enclosed.declaration {type : Token} (enclosed : cursor.Enclosed tokens)
    (seen : cursor.peek? = some type) (isType : type.kind.isType = true)
    (failed : (cursor.declaration type).outcome = .error cause) :
    cause.DescribesPlace tokens cursor.position (cursor.declaration type).cursor.position := by
  have here := enclosed.getElem?_of_peek? seen
  have behindType := enclosed.of_keeps (.advance seen)
  obtain ⟨inSight, rest, shape⟩ := peek?_eq_some_iff.mp seen
  have follows : cursor.advance.rest.head? = tokens[cursor.position + 1]? := by
    rw [behindType.head?_eq, advance_cons shape]
  unfold Cursor.declaration at failed ⊢
  rw [follows] at failed ⊢
  split at failed
  · next missing =>
      cases failed
      apply GrammarError.DescribesPlace.danglingDeclaration here isType
      have inside := (List.getElem?_eq_some_iff.mp here).1
      exact Nat.le_antisymm inside (List.getElem?_eq_none_iff.mp missing)
  · next name named =>
      split at failed
      · next noName =>
          rw [if_pos noName]
          cases failed
          exact .badDeclaration here isType named noName
      · next isNamed =>
          have isName : name.kind = .identifier := Decidable.not_not.mp isNamed
          rw [if_neg isNamed]
          split at failed
          · next paren =>
              rw [if_pos paren]
              have seenName : cursor.advance.peek? = some name :=
                enclosed.peek?_advance seen named (ne_of_eq_of_ne isName (by decide))
              obtain ⟨-, more, shapeName⟩ := peek?_eq_some_iff.mp seenName
              have behindName : cursor.advance.advance.position = cursor.position + 2 := by
                rw [advance_cons shapeName, advance_cons shape]
              have kept := behindType.of_keeps (.advance seenName)
              refine kept.functionDeclaration behindName here isType named isName ?_ failed
              rw [behindName, advance_cons shapeName, advance_cons shape]
              exact enclosed.opening_behind_name here isType named isName paren
          · cases failed

/-!
### Statements

An expression that cannot stand as a statement is judged where it ends.
-/

/-- Of the errors of the check, the one for a missing name behind a type does not occur, because an
expression does not start with a type. -/
theorem asStatement_error {taken : List Token} {node : Node}
    (expression : Grammar.Expression taken node) (judged : asStatement taken node = .error cause) :
    cause = .danglingExpression ∧ node.token.kind ≠ .assign ∧ node.token.kind ≠ .call ∨
      node.token.kind = .assign ∧ ∃ head second rest, taken = head :: second :: rest ∧
        (cause = .badAssignment ∧ head.kind ≠ .identifier ∧ second.kind = .assign ∨
          cause = .definitionWithoutType ∧ head.kind.isType = false ∧ second.kind ≠ .assign) := by
  unfold asStatement at judged
  split at judged
  · next assigns =>
      obtain ⟨head, second, rest, rfl, noType, -, check⟩ := expression.checkAssignment_eq assigns
      rw [check] at judged
      refine .inr ⟨assigns, head, second, rest, rfl, ?_⟩
      split at judged
      · next isAssign =>
          split at judged
          · cases judged
          · next noName =>
              cases judged
              exact .inl ⟨rfl, noName, isAssign⟩
      · next noAssign =>
          cases judged
          exact .inr ⟨rfl, noType, noAssign⟩
  · next noAssign =>
      split at judged
      · cases judged
      · next noCall =>
          cases judged
          exact .inl ⟨rfl, noAssign, noCall⟩

theorem Bounded.expressionStatement (bounded : cursor.Bounded tokens)
    (failed : cursor.expressionStatement.outcome = .error cause) :
    cause.DescribesPlace tokens cursor.position cursor.expressionStatement.cursor.position := by
  unfold Cursor.expressionStatement at failed ⊢
  cases outcome : cursor.expression.outcome with
  | error other =>
      simp only [outcome] at failed
      obtain rfl := Except.error.inj failed
      exact bounded.read outcome
  | ok node =>
      have kept := Keeps.run cursor.bound (.initial .expression) cursor.position cursor.rest
      have reached : cursor.expression.cursor.Bounded tokens := bounded.of_keeps kept
      have fenced : cursor.expression.cursor.peek? = none →
          ∀ next ∈ cursor.expression.cursor.rest.head?, next.kind = .semicolon := by
        intro unseen next isNext
        rw [reached.head?_eq] at isNext
        rcases reached.ends_of_unseen unseen with whole | ⟨semicolon, here, isSemicolon⟩
        · rw [whole, List.getElem?_eq_none (Nat.le_refl _)] at isNext
          cases isNext
        · rw [here] at isNext
          exact Option.some.inj isNext ▸ isSemicolon
      obtain ⟨taken, shape, moved, derived, stops⟩ := Phrase.read_stops fenced outcome
      have spans : Phrase.Extent.expression.Spans tokens cursor.position
          cursor.expression.cursor.position node :=
        ⟨taken, _, bounded.rest_eq ▸ shape, moved, derived, stops⟩
      have span : cursor.rest.take (cursor.expression.cursor.position - cursor.position) =
          taken := Cursor.take_passed shape moved
      simp only [outcome, span] at failed
      have startsAt : ∀ head second rest, taken = head :: second :: rest →
          tokens[cursor.position]? = some head ∧ tokens[cursor.position + 1]? = some second := by
        rintro head second rest rfl
        rw [bounded.rest_eq] at shape
        have fromStart := congrArg (·[0]?) shape
        have fromNext := congrArg (·[1]?) shape
        simp only [List.getElem?_drop, List.cons_append] at fromStart fromNext
        exact ⟨fromStart, fromNext⟩
      rcases asStatement_error derived failed with ⟨rfl, noAssign, noCall⟩ |
        ⟨assignment, head, second, rest, starting, judged⟩
      · exact .danglingExpression spans noAssign noCall
      · obtain ⟨starts, next⟩ := startsAt head second rest starting
        rcases judged with ⟨rfl, noName, assigns⟩ | ⟨rfl, noType, longer⟩
        · exact .badAssignment spans assignment starts noName next assigns
        · exact .definitionWithoutType spans assignment starts noType next longer

theorem Enclosed.statementBody (enclosed : cursor.Enclosed tokens)
    (failed : cursor.statementBody.outcome = .error cause) :
    cause.DescribesPlace tokens cursor.position cursor.statementBody.cursor.position := by
  unfold Cursor.statementBody at failed ⊢
  split at failed
  · next token seen =>
      split at failed
      · next isType =>
          rw [if_pos isType]
          exact enclosed.declaration seen isType failed
      · next noType =>
          rw [if_neg noType]
          exact enclosed.expressionStatement failed
  · exact enclosed.expressionStatement failed

theorem Settled.statement (settled : cursor.Settled tokens)
    (failed : cursor.statement.outcome = .error cause) :
    cause.DescribesPlace tokens cursor.position cursor.statement.cursor.position := by
  have enclosed := settled.enclosed
  have reached := enclosed.of_keeps (.statementBody cursor.fenced_withBound)
  obtain ⟨stop, fault⟩ := terminated_error failed
  unfold Cursor.statement
  simp only [stop]
  rcases fault with ofBody | ⟨rfl, unended⟩
  · exact enclosed.statementBody ofBody
  · apply GrammarError.DescribesPlace.missingSemicolon
    intro token here
    apply unended
    exact reached.head?_eq.trans here

/-!
### Programs

A program fails in one of its statements, which starts behind the semicolon of another one.
-/

theorem Settled.program (settled : cursor.Settled tokens)
    (failed : cursor.program.outcome = .error cause) :
    ∃ first, StatementStarts tokens cursor.position first ∧
      cause.DescribesPlace tokens first cursor.program.cursor.position := by
  fun_induction Cursor.program cursor with
  | case1 cursor ended => cases failed
  | case2 cursor unended reply other fault =>
      obtain rfl := Except.error.inj failed
      exact ⟨cursor.position, .inl rfl, settled.statement fault⟩
  | case3 cursor unended reply node read ih =>
      have behind : cursor.statement.cursor.Settled tokens :=
        settled.of_leadsTo cursor.leadsTo_statement cursor.bound_statement
      obtain ⟨first, starts, describes⟩ := ih behind (Reply.outcome_map_eq_error_iff.mp failed)
      obtain ⟨forward, semicolon⟩ := settled.behind_semicolon read
      refine ⟨first, ?_, describes⟩
      rcases starts with rfl | ⟨later, semicolonToo⟩
      · exact .inr ⟨forward, semicolon⟩
      · exact .inr ⟨Nat.lt_trans forward later, semicolonToo⟩

end Cursor

namespace Session

variable {tokens : List Token}

/-- After any calls, a call that fails leaves the cursor at the place that its error is about.  The
phrase or the statement that could not be read starts at the cursor before the call or, in a
program, behind the semicolon of the statement before it. -/
theorem perform_fails_in_place {session : Session} (reached : Reached tokens session) {call : Call}
    {cause : GrammarError} (failed : (session.perform call).outcome = .error cause) :
    ∃ first, (first = session.cursor.position ∨
        call = .program ∧ StatementStarts tokens session.cursor.position first) ∧
      cause.DescribesPlace tokens first (session.perform call).session.cursor.position := by
  have settled := reached.settled.1
  have bounded := settled.bounded
  have ofReading : ∀ {α : Type} {product : α → Product} {reply : Reply α},
      (session.take product reply).outcome = .error cause → reply.outcome = .error cause :=
    fun refused => Reply.outcome_map_eq_error_iff.mp refused
  cases call with
  | statement => exact ⟨_, .inl rfl, settled.statement (ofReading failed)⟩
  | expression => exact ⟨_, .inl rfl, bounded.read (ofReading failed)⟩
  | arithmetic => exact ⟨_, .inl rfl, bounded.read (ofReading failed)⟩
  | factor => exact ⟨_, .inl rfl, bounded.read (ofReading failed)⟩
  | program =>
      obtain ⟨first, starts, describes⟩ := settled.program (ofReading failed)
      exact ⟨first, .inr ⟨rfl, starts⟩, describes⟩
  | save => cases failed
  | restore => cases failed

/-- The second of two statements names a function, but its parenthesis comes too late. -/
theorem perform_fails_in_place_late_parenthesis :
    let tokens := [.identifier "a", .ofText .assign "=", .integer 5, .ofText .semicolon ";",
      .ofText .intType "int", .identifier "f", .identifier "x", .ofText .leftParen "(",
      .ofText .rightParen ")", .ofText .semicolon ";"]
    let session := (ofTokens tokens).after [.statement]
    Reached tokens session ∧
      (session.perform .statement).outcome = .error .danglingFunctionDeclaration ∧
      (session.perform .statement).session.cursor.position = 6 ∧
      GrammarError.danglingFunctionDeclaration.DescribesPlace tokens 4 6 := by
  intro tokens session
  have reached : Reached tokens session := Reached.start.after [.statement]
  have failed : (session.perform .statement).outcome = .error .danglingFunctionDeclaration := by
    rfl
  have stopped : (session.perform .statement).session.cursor.position = 6 := by decide
  obtain ⟨first, starts | ⟨isProgram, -⟩, describes⟩ := perform_fails_in_place reached failed
  · rw [starts, stopped] at describes
    exact ⟨reached, failed, stopped, describes⟩
  · cases isProgram

end Session

end CLike
