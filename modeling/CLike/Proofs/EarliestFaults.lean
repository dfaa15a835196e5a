/-
Module: CLike.Proofs.EarliestFaults
Layer: Proofs
Purpose: A phrase that cannot be read fails at the first token that no phrase can go on with.  The
  tokens before it can be completed, and nothing behind it can make it fit.
Main exports: Phrase.Context.exists_ending, Phrase.State.exists_ending, Phrase.read_of_feed,
  Phrase.read_of_refused, Phrase.reading_fails_earliest
-/
import CLike.Proofs.PhraseLanguage

namespace CLike.Phrase

open Grammar

/-!
### Completing what has been read

No state is a dead end.  A missing operand can be supplied, and then one parenthesis for each call
that is still open.
-/

/-- A token that closes a call. -/
def closing : Token := .ofText .rightParen ")"

/-- Between the arguments of a call a parenthesis closes it. -/
theorem betweenStep_closing (expecting : Bool) (call : OpenCall) (outer : Context) :
    betweenStep expecting call outer closing = .more (.chain call.close outer) :=
  if_pos rfl

/-- Behind an argument it closes the call as well. -/
theorem State.step_closing {state : State} {phrase : Node} {call : OpenCall} {outer : Context}
    (settled : state.settled? = some (phrase, .argument call outer)) :
    state.step closing = .more (.chain (call.push phrase).close outer) := by
  have inside : state.Inside false (call.push phrase) outer := ⟨phrase, call, settled, rfl⟩
  have noCall : closing.kind ≠ .leftParen := by decide
  rw [inside.step noCall rfl]
  exact betweenStep_closing false _ outer

/-- The induction is on the calls that are open. -/
theorem Context.exists_ending (context : Context) {state : State} {phrase : Node}
    (settled : state.settled? = some (phrase, context)) :
    ∃ ending final whole extent assigned, state.feed ending = some final ∧
      final.settled? = some (whole, .whole extent assigned) := by
  induction context generalizing state phrase with
  | whole extent assigned => exact ⟨[], state, phrase, extent, assigned, rfl, settled⟩
  | argument call outer ih =>
      obtain ⟨ending, final, whole, extent, assigned, fed, complete⟩ :=
        @ih (.chain (call.push phrase).close outer) _ rfl
      refine ⟨closing :: ending, final, whole, extent, assigned, ?_, complete⟩
      rw [State.feed_cons (State.step_closing settled)]
      exact fed

/-- From each state some tokens lead to a complete phrase. -/
theorem State.exists_ending (state : State) :
    ∃ ending final whole extent assigned, state.feed ending = some final ∧
      final.settled? = some (whole, .whole extent assigned) := by
  have behind : ∀ {token : Token} {next : State} {phrase : Node} {context : Context},
      state.step token = .more next → next.settled? = some (phrase, context) →
        ∃ ending final whole extent assigned, state.feed ending = some final ∧
          final.settled? = some (whole, .whole extent assigned) := by
    intro token next phrase context goesOn settled
    obtain ⟨ending, final, whole, extent, assigned, fed, complete⟩ := context.exists_ending settled
    refine ⟨token :: ending, final, whole, extent, assigned, ?_, complete⟩
    rw [feed_cons goesOn]
    exact fed
  cases state with
  | operand waiting context =>
      have supplied : IsLiteral (Token.integer 0) := .inl rfl
      exact behind (step_literal supplied waiting context) rfl
  | named name waiting context => exact context.exists_ending rfl
  | chain phrase context => exact context.exists_ending rfl
  | between expecting call outer => exact behind (betweenStep_closing expecting call outer) rfl

/-!
### Readings from the start
-/

/-- Tokens that lead to a complete phrase are read to their end. -/
theorem read_of_feed {extent own : Extent} {tokens : List Token} {final : State} {whole : Node}
    {assigned : Option Pending} (fed : (State.initial extent).feed tokens = some final)
    (complete : final.settled? = some (whole, .whole own assigned)) :
    read extent (.ofTokens tokens) =
      ⟨.ok (join assigned whole), ⟨tokens.length, [], tokens.length⟩⟩ := by
  have inSight : 0 + tokens.length ≤ tokens.length := Nat.le_of_eq (Nat.zero_add _)
  have passed := State.run_feed fed inSight []
  rw [List.append_nil, Nat.zero_add, State.run, State.finish_of_settled? complete] at passed
  exact passed

/-- Behind tokens that belong to a phrase a token that cannot stand there is the end, whatever
follows. -/
theorem read_of_refused {extent : Extent} {taken : List Token} {state : State} {token : Token}
    {cause : GrammarError} (fed : (State.initial extent).feed taken = some state)
    (refused : state.step token = .fail cause) (later : List Token) :
    (read extent (.ofTokens (taken ++ token :: later))).outcome = .error cause ∧
      (read extent (.ofTokens (taken ++ token :: later))).cursor.position = taken.length := by
  have inSight : 0 + taken.length < (taken ++ token :: later).length := by
    simp only [List.length_append, List.length_cons]
    omega
  have passed := State.run_feed fed (Nat.le_of_lt inSight) (token :: later)
  rw [State.run, if_pos inSight, refused, Nat.zero_add] at passed
  exact ⟨congrArg Reply.outcome passed, congrArg (·.cursor.position) passed⟩

/-- When the reading of a phrase from the start of some tokens fails, it stands at the first token
that cannot follow.  The tokens before it are the start of a phrase, which some other tokens complete;
and if there is a token at that place, the reading of any tokens with the same ones up to and with
this one fails there too, and for the same reason. -/
theorem reading_fails_earliest {extent : Extent} {tokens : List Token} {cause : GrammarError}
    (failed : (extent.reading (.ofTokens tokens)).outcome = .error cause) :
    let place := (extent.reading (.ofTokens tokens)).cursor.position
    place ≤ tokens.length ∧
    (∃ ending node,
      let completed := extent.reading (.ofTokens (tokens.take place ++ ending))
      completed.outcome = .ok node ∧
        completed.cursor.position = (tokens.take place ++ ending).length) ∧
    (place < tokens.length → ∀ later,
      let again := extent.reading (.ofTokens (tokens.take (place + 1) ++ later))
      again.outcome = .error cause ∧ again.cursor.position = place) := by
  have asRead : extent.reading = read extent := by
    cases extent <;> rfl
  rw [asRead] at failed ⊢
  intro place
  obtain ⟨taken, rest, state, shape, fed, stop, stopped⟩ := read_stopped extent (.ofTokens tokens)
  have stopPlace : place = taken.length := by
    have stopPosition := congrArg Cursor.position stop
    exact stopPosition.trans (Nat.zero_add _)
  have whole : tokens = taken ++ rest := shape
  have before : tokens.take place = taken := by rw [stopPlace, whole, List.take_left]
  refine ⟨?_, ?_, ?_⟩
  · rw [stopPlace, whole, List.length_append]
    exact Nat.le_add_right _ _
  · obtain ⟨ending, final, phrase, own, assigned, completes, complete⟩ := state.exists_ending
    have fedAll : (State.initial extent).feed (taken ++ ending) = some final := by
      rw [State.feed_append fed]
      exact completes
    have completed := read_of_feed fedAll complete
    refine ⟨ending, join assigned phrase, ?_⟩
    rw [before]
    exact ⟨congrArg Reply.outcome completed, congrArg (·.cursor.position) completed⟩
  · intro inside later
    rw [failed] at stopped
    generalize outcome : Except.error cause = found at stopped
    cases stopped with
    | ended =>
        rw [stopPlace, whole, List.append_nil] at inside
        exact absurd inside (Nat.lt_irrefl _)
    | unseen outOfSight =>
        -- All tokens are in sight, so the end of the sight is the end of the tokens.
        rw [stopPlace, ← Nat.zero_add taken.length] at inside
        exact absurd inside outOfSight
    | done => cases outcome
    | @fail token behind _ _ refused =>
        obtain rfl := Except.error.inj outcome
        have through : tokens.take (place + 1) ++ later = taken ++ token :: later := by
          rw [stopPlace, whole, List.take_length_add_append]
          simp
        obtain ⟨refusedAgain, placeAgain⟩ := read_of_refused fed refused later
        rw [through, stopPlace]
        exact ⟨refusedAgain, placeAgain⟩

/-- An operand is missing between an operator and a comma, in the list of a call. -/
theorem reading_fails_earliest_missing_operand :
    let tokens := [.identifier "f", .ofText .leftParen "(", .identifier "a", .ofText .plus "+",
      .ofText .comma ",", .identifier "b", .ofText .rightParen ")"]
    let cause := GrammarError.unsupportedFactor ","
    let fromStart (tokens : List Token) := Extent.expression.reading (.ofTokens tokens)
    (fromStart tokens).outcome = .error cause ∧ (fromStart tokens).cursor.position = 4 ∧
      (∃ ending node, (fromStart (tokens.take 4 ++ ending)).outcome = .ok node ∧
        (fromStart (tokens.take 4 ++ ending)).cursor.position = (tokens.take 4 ++ ending).length) ∧
      ∀ later, (fromStart (tokens.take 5 ++ later)).outcome = .error cause ∧
        (fromStart (tokens.take 5 ++ later)).cursor.position = 4 := by
  intro tokens cause fromStart
  have failed : (fromStart tokens).outcome = .error cause := rfl
  have stopped : (fromStart tokens).cursor.position = 4 := rfl
  obtain ⟨-, completed, again⟩ := reading_fails_earliest failed
  exact ⟨failed, stopped, completed, again (by decide)⟩

end CLike.Phrase
