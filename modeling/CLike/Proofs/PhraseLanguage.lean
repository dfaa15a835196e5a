/-
Module: CLike.Proofs.PhraseLanguage
Layer: Proofs
Purpose: A phrase is read exactly when some of the next tokens have the form of the grammar and the
  token behind them does not prolong them, and there is at most one way to choose these tokens.
Main exports: Phrase.State.Stopped, Phrase.State.exists_stop, Phrase.State.behind_step,
  Phrase.Extent.Stops, Phrase.Extent.Derives.feed, Phrase.read_complete, Phrase.phrase_language
-/
import CLike.Proofs.PhraseReading

namespace CLike.Phrase

open Grammar

/-!
### Where a run stops

A run is a walk over the tokens that belong to the phrase, and then one look at the token behind
them.
-/

/-- How a run ends in a state, with these tokens still to come: because there is none, because the
next one is out of sight, or because it ends the phrase or cannot stand there. -/
inductive State.Stopped (bound position : Nat) (state : State) :
    List Token → Except GrammarError Node → Prop where
  | ended : Stopped bound position state [] (state.finish none)
  | unseen {token : Token} {rest : List Token} (outOfSight : ¬ position < bound) :
      Stopped bound position state (token :: rest) (state.finish (some token))
  | done {token : Token} {rest : List Token} {phrase : Node} (inSight : position < bound)
      (ends : state.step token = .done phrase) :
      Stopped bound position state (token :: rest) (.ok phrase)
  | fail {token : Token} {rest : List Token} {cause : GrammarError} (inSight : position < bound)
      (refused : state.step token = .fail cause) :
      Stopped bound position state (token :: rest) (.error cause)

theorem State.exists_stop (bound : Nat) (state : State) (position : Nat) (tokens : List Token) :
    ∃ taken rest next, tokens = taken ++ rest ∧ state.feed taken = some next ∧
      (state.run bound position tokens).cursor = ⟨position + taken.length, rest, bound⟩ ∧
      next.Stopped bound (position + taken.length) rest
        (state.run bound position tokens).outcome := by
  induction tokens generalizing state position with
  | nil => exact ⟨[], [], state, rfl, rfl, rfl, .ended⟩
  | cons token tokens ih =>
      by_cases inSight : position < bound
      · cases step : state.step token with
        | more next =>
            obtain ⟨taken, rest, final, shape, fed, stops, stopped⟩ := ih next (position + 1)
            have counted : position + (token :: taken).length = position + 1 + taken.length := by
              simp only [List.length_cons]
              omega
            refine ⟨token :: taken, rest, final, ?_, ?_, ?_, ?_⟩
            · exact congrArg (token :: ·) shape
            · simpa only [feed_cons step] using fed
            · simpa only [run, if_pos inSight, step, counted] using stops
            · simpa only [run, if_pos inSight, step, counted] using stopped
        | done phrase =>
            refine ⟨[], token :: tokens, state, rfl, rfl, ?_, ?_⟩
            · simp only [run, if_pos inSight, step, List.length_nil, Nat.add_zero]
            · simp only [run, if_pos inSight, step, List.length_nil, Nat.add_zero]
              exact .done inSight step
        | fail cause =>
            refine ⟨[], token :: tokens, state, rfl, rfl, ?_, ?_⟩
            · simp only [run, if_pos inSight, step, List.length_nil, Nat.add_zero]
            · simp only [run, if_pos inSight, step, List.length_nil, Nat.add_zero]
              exact .fail inSight step
      · refine ⟨[], token :: tokens, state, rfl, rfl, ?_, ?_⟩
        · simp only [run, if_neg inSight, List.length_nil, Nat.add_zero]
        · simp only [run, if_neg inSight, List.length_nil, Nat.add_zero]
          exact .unseen inSight

/-- A reading is a run from its initial state. -/
theorem read_stopped (extent : Extent) (cursor : Cursor) :
    ∃ taken rest state, cursor.rest = taken ++ rest ∧
      (State.initial extent).feed taken = some state ∧
      (read extent cursor).cursor = ⟨cursor.position + taken.length, rest, cursor.bound⟩ ∧
      state.Stopped cursor.bound (cursor.position + taken.length) rest
        (read extent cursor).outcome :=
  (State.initial extent).exists_stop cursor.bound cursor.position cursor.rest

/-!
### The last token

A state remembers of the last token what can follow it.  A parenthesis, for one, prolongs a phrase
that ends in a name and no other one.
-/

/-- The classes of the last token before a state. -/
inductive State.Behind (token : Token) : State → Prop where
  | mark {waiting : Option Pending} {context : Context}
      (isMark : token.kind.isArithmetic = true ∨ token.kind = .assign) :
      Behind token (.operand waiting context)
  | name {name : Token} {waiting : Option Pending} {context : Context}
      (isName : token.kind = .identifier) : Behind token (.named name waiting context)
  | ending {phrase : Node} {context : Context}
      (ends : IsLiteral token ∨ token.kind = .rightParen) : Behind token (.chain phrase context)
  | list {call : OpenCall} {outer : Context}
      (opens : token.kind = .leftParen ∨ token.kind = .comma) :
      Behind token (.between true call outer)

theorem operandStep_behind {waiting : Option Pending} {context : Context} {token : Token}
    {next : State} (goesOn : operandStep waiting context token = .more next) :
    next.Behind token := by
  unfold operandStep at goesOn
  split at goesOn
  · next isLiteral =>
      cases goesOn
      exact .ending (.inl isLiteral)
  · split at goesOn
    · next isName =>
        cases goesOn
        exact .name isName
    · cases goesOn

theorem betweenStep_behind {expecting : Bool} {call : OpenCall} {outer : Context} {token : Token}
    {next : State} (goesOn : betweenStep expecting call outer token = .more next) :
    next.Behind token := by
  unfold betweenStep at goesOn
  split at goesOn
  · next closes =>
      cases goesOn
      exact .ending (.inr closes)
  · split at goesOn
    · next isComma =>
        cases goesOn
        exact .list (.inr isComma)
    · split at goesOn
      · exact operandStep_behind goesOn
      · cases goesOn

theorem chainStep_behind {phrase : Node} {context : Context} {token : Token} {next : State}
    (goesOn : chainStep phrase context token = .more next) : next.Behind token := by
  cases context with
  | whole extent assigned =>
      rw [chainStep] at goesOn
      split at goesOn
      · next operator =>
          cases goesOn
          exact .mark (.inl operator.2)
      · split at goesOn
        · next assigns =>
            cases goesOn
            exact .mark (.inr assigns.2)
        · cases goesOn
  | argument call outer =>
      rw [chainStep] at goesOn
      split at goesOn
      · next operator =>
          cases goesOn
          exact .mark (.inl operator)
      · exact betweenStep_behind goesOn

theorem State.behind_step {state next : State} {token : Token}
    (goesOn : state.step token = .more next) : next.Behind token := by
  cases state with
  | operand waiting context => exact operandStep_behind goesOn
  | named name waiting context =>
      rw [step] at goesOn
      split at goesOn
      · next opens =>
          cases goesOn
          exact .list (.inl opens)
      · exact chainStep_behind goesOn
  | chain phrase context => exact chainStep_behind goesOn
  | between expecting call outer => exact betweenStep_behind goesOn

theorem State.behind_feed {state next : State} {tokens : List Token} {last : Token}
    (fed : state.feed tokens = some next) (isLast : last ∈ tokens.getLast?) :
    next.Behind last := by
  induction tokens generalizing state with
  | nil => cases isLast
  | cons token rest ih =>
      rw [feed] at fed
      split at fed
      · next middle goesOn =>
          cases rest with
          | nil =>
              obtain rfl := Option.some.inj fed
              obtain rfl := Option.some.inj isLast
              exact behind_step goesOn
          | cons second rest => exact ih fed isLast
      · cases fed

/-- Whether a name has just been read. -/
def State.isNamed : State → Bool
  | .named .. => true
  | _ => false

/-- The state is that of a name exactly if the last token is one. -/
theorem State.Behind.isNamed_iff {state : State} {token : Token} (behind : state.Behind token) :
    state.isNamed = true ↔ token.kind = .identifier := by
  cases behind with
  | mark isMark =>
      have noName : token.kind ≠ .identifier := by
        rcases isMark with operator | assigns
        · exact Kind.ne_of_member operator rfl
        · simp [assigns]
      simp [State.isNamed, noName]
  | name isName => simp [State.isNamed, isName]
  | ending ends => rcases ends with (kind | kind | kind) | kind <;> simp [State.isNamed, kind]
  | list opens => rcases opens with kind | kind <;> simp [State.isNamed, kind]

/-!
### Where a phrase ends
-/

/-- The phrase ends behind the tokens that were taken: the next token is neither an operator nor an
`=` that would prolong it, nor a parenthesis that would make a call of its last name. -/
structure Extent.Stops (extent : Extent) (taken rest : List Token) : Prop where
  operator : extent ≠ .factor → ∀ next ∈ rest.head?, next.kind.isArithmetic = false
  assignment : extent = .expression → ∀ next ∈ rest.head?, next.kind ≠ .assign
  parenthesis : ∀ last ∈ taken.getLast?, last.kind = .identifier →
    ∀ next ∈ rest.head?, next.kind ≠ .leftParen

/-- A token ends a whole chain exactly when it prolongs it in neither way. -/
theorem chainStep_whole_iff {phrase node : Node} {extent : Extent} {assigned : Option Pending}
    {token : Token} :
    chainStep phrase (.whole extent assigned) token = .done node ↔
      ((extent ≠ .factor → token.kind.isArithmetic = false) ∧
        (extent = .expression → token.kind ≠ .assign)) ∧ join assigned phrase = node := by
  rw [chainStep]
  split
  · next operator =>
      obtain ⟨chains, isOperator⟩ := operator
      simp [chains, isOperator]
  · next noOperator =>
      have arithmetic : extent ≠ .factor → token.kind.isArithmetic = false := by
        intro chains
        exact Bool.eq_false_iff.mpr fun isOperator => noOperator ⟨chains, isOperator⟩
      split
      · next assigns =>
          obtain ⟨whole, isAssign⟩ := assigns
          simp [whole, isAssign]
      · next noAssign =>
          have assignment : extent = .expression → token.kind ≠ .assign :=
            fun whole isAssign => noAssign ⟨whole, isAssign⟩
          simp only [Step.done.injEq]
          exact ⟨fun same => ⟨⟨arithmetic, assignment⟩, same⟩, And.right⟩

/-!
### Every phrase is read

The tokens of a derivation lead to a state in which the phrase stands complete.  The token behind
them finds it there and goes no further.
-/

/-- A derivation of any extent is read from the start of a reading of that extent. -/
theorem Extent.Derives.feed {extent : Extent} {tokens : List Token} {node : Node}
    (derived : extent.Derives tokens node) :
    ∃ state phrase assigned, (State.initial extent).feed tokens = some state ∧
      state.settled? = some (phrase, .whole extent assigned) ∧ join assigned phrase = node := by
  cases extent with
  | factor =>
      obtain ⟨state, fed, settled⟩ := Factor.feed derived none (.whole .factor none)
      exact ⟨state, node, none, fed, settled, rfl⟩
  | arithmetic =>
      obtain ⟨state, fed, settled⟩ := Arithmetic.feed derived (.whole .arithmetic none) nofun
      exact ⟨state, node, none, fed, settled, rfl⟩
  | expression => exact Expression.feed derived

/-- A phrase that stands complete is the result, if the tokens still to come do not prolong it. -/
theorem State.run_of_stops {state : State} {phrase : Node} {extent : Extent}
    {assigned : Option Pending} {taken rest : List Token} {start : State}
    (fed : start.feed taken = some state) (filled : taken ≠ [])
    (settled : state.settled? = some (phrase, .whole extent assigned))
    (stops : extent.Stops taken rest) (bound position : Nat) :
    state.run bound position rest = ⟨.ok (join assigned phrase), ⟨position, rest, bound⟩⟩ := by
  cases rest with
  | nil => rw [run, finish_of_settled? settled, finishChain]
  | cons token later =>
      have ends : state.step token = .done (join assigned phrase) := by
        have chainEnds : chainStep phrase (.whole extent assigned) token =
            .done (join assigned phrase) :=
          chainStep_whole_iff.mpr ⟨⟨fun chains => stops.operator chains token rfl,
            fun whole => stops.assignment whole token rfl⟩, rfl⟩
        cases state with
        | operand waiting context => cases settled
        | named name waiting context =>
            have noCall : token.kind ≠ .leftParen := by
              have isLast := List.getLast?_eq_some_getLast filled
              have isName := (behind_feed fed isLast).isNamed_iff.mp rfl
              exact stops.parenthesis _ isLast isName token rfl
            rw [step_of_settled? settled noCall]
            exact chainEnds
        | chain phrase context =>
            cases settled
            exact chainEnds
        | between expecting call outer => cases settled
      rw [run, ends, finish_of_settled? settled, finishChain]
      simp only [ite_self]

/-- A phrase is never without tokens. -/
theorem Extent.Derives.filled {extent : Extent} {tokens : List Token} {node : Node}
    (derived : extent.Derives tokens node) : tokens ≠ [] := by
  have ofArithmetic : ∀ {tokens node}, Arithmetic tokens node → tokens ≠ [] := by
    intro tokens node arithmetic
    obtain ⟨first, rest, rfl, -⟩ := arithmetic.exists_head
    exact List.cons_ne_nil first rest
  cases extent with
  | factor => exact ofArithmetic (.factor derived)
  | arithmetic => exact ofArithmetic derived
  | expression =>
      cases derived with
      | arithmetic alone => exact ofArithmetic alone
      | assignment => exact List.append_ne_nil_of_right_ne_nil _ (List.cons_ne_nil _ _)

/-- A phrase that is in sight and ends in front of what follows is read up to there. -/
theorem read_complete {extent : Extent} {cursor : Cursor} {taken rest : List Token} {node : Node}
    (shape : cursor.rest = taken ++ rest) (derived : extent.Derives taken node)
    (stops : extent.Stops taken rest)
    (inSight : cursor.position + taken.length ≤ cursor.bound) :
    read extent cursor = ⟨.ok node, ⟨cursor.position + taken.length, rest, cursor.bound⟩⟩ := by
  obtain ⟨state, phrase, assigned, fed, settled, rfl⟩ := derived.feed
  rw [read, shape, State.run_feed fed inSight, State.run_of_stops fed derived.filled settled stops]

/-!
### What is read ends there
-/

/-- What a state stands for holds of the state that more tokens lead to. -/
theorem State.Reads.feed {extent : Extent} {state next : State} {before tokens : List Token}
    (reads : state.Reads extent before) (fed : state.feed tokens = some next) :
    next.Reads extent (before ++ tokens) := by
  induction tokens generalizing state before with
  | nil =>
      rw [State.feed] at fed
      rw [List.append_nil, ← Option.some.inj fed]
      exact reads
  | cons token tokens ih =>
      rw [State.feed] at fed
      split at fed
      · next goesOn =>
          have later := ih (reads.step goesOn) fed
          rwa [List.append_assoc, List.singleton_append] at later
      · cases fed

/-- Only a whole reading of its own extent is the context of a chain that is ended by a token. -/
theorem Context.Reads.extent_eq {extent own : Extent} {assigned : Option Pending}
    {tokens : List Token} (reads : (Context.whole own assigned).Reads extent tokens) :
    own = extent := by
  cases assigned with
  | none => exact reads.1
  | some waiting => exact reads.1

/-- A token in sight that ends a phrase does not prolong it. -/
theorem State.Reads.stops {extent : Extent} {state : State} {taken rest : List Token}
    {token : Token} {node : Node} (reads : state.Reads extent taken)
    (fed : (State.initial extent).feed taken = some state)
    (ends : state.step token = .done node) : extent.Stops taken (token :: rest) := by
  have ofChain : ∀ {phrase context}, state.settled? = some (phrase, context) →
      chainStep phrase context token = .done node →
      (extent ≠ .factor → token.kind.isArithmetic = false) ∧
        (extent = .expression → token.kind ≠ .assign) := by
    intro phrase context settled endsChain
    obtain ⟨own, assigned, rfl, -⟩ := chainStep_done endsChain
    obtain ⟨before, chain, -, outside, -⟩ := reads.settled settled
    obtain rfl := outside.extent_eq
    exact (chainStep_whole_iff.mp endsChain).1
  have unprolonged : ((extent ≠ .factor → token.kind.isArithmetic = false) ∧
      (extent = .expression → token.kind ≠ .assign)) ∧
        (state.isNamed = true → token.kind ≠ .leftParen) := by
    cases state with
    | operand waiting context => exact absurd ends operandStep_ne_done
    | named name waiting context =>
        rw [State.step] at ends
        split at ends
        · cases ends
        · next noCall => exact ⟨ofChain rfl ends, fun _ => noCall⟩
    | chain phrase context =>
        refine ⟨ofChain rfl ends, ?_⟩
        intro isNamed
        cases isNamed
    | between expecting call outer => exact absurd ends betweenStep_ne_done
  obtain ⟨⟨operator, assignment⟩, parenthesis⟩ := unprolonged
  constructor
  · rintro chains next ⟨⟩
    exact operator chains
  · rintro whole next ⟨⟩
    exact assignment whole
  · rintro last isLast isName next ⟨⟩
    exact parenthesis ((State.behind_feed fed isLast).isNamed_iff.mpr isName)

/-- A semicolon prolongs no phrase, and neither does the end of the tokens. -/
theorem Extent.Stops.of_semicolon {extent : Extent} {taken rest : List Token}
    (ends : ∀ next ∈ rest.head?, next.kind = .semicolon) : extent.Stops taken rest where
  operator _ next isNext := by
    rw [ends next isNext]
    rfl
  assignment _ next isNext := by simp [ends next isNext]
  parenthesis _ _ _ next isNext := by simp [ends next isNext]

/-- Whatever is read is a phrase that ends where the reading stops, if nothing but a semicolon can
be out of sight there. -/
theorem read_stops {extent : Extent} {cursor : Cursor} {node : Node}
    (fenced : (read extent cursor).cursor.peek? = none →
      ∀ next ∈ (read extent cursor).cursor.rest.head?, next.kind = .semicolon)
    (success : (read extent cursor).outcome = .ok node) :
    ∃ taken, cursor.rest = taken ++ (read extent cursor).cursor.rest ∧
      (read extent cursor).cursor.position = cursor.position + taken.length ∧
      extent.Derives taken node ∧ extent.Stops taken (read extent cursor).cursor.rest := by
  have start : (State.initial extent).Reads extent [] := ⟨[], [], rfl, ⟨rfl, rfl⟩, rfl⟩
  obtain ⟨taken, rest, state, shape, fed, stop, stopped⟩ := read_stopped extent cursor
  have reads : state.Reads extent taken := start.feed fed
  rw [success] at stopped
  rw [stop] at fenced ⊢
  refine ⟨taken, shape, rfl, ?_⟩
  generalize outcome : Except.ok node = found at stopped
  cases stopped with
  | ended => exact ⟨reads.finish outcome.symm, .of_semicolon nofun⟩
  | unseen outOfSight =>
      exact ⟨reads.finish outcome.symm, .of_semicolon (fenced (if_neg outOfSight))⟩
  | done inSight ends =>
      obtain rfl := Except.ok.inj outcome
      exact ⟨reads.done ends, reads.stops fed ends⟩
  | fail => cases outcome

/-!
### The language of phrases
-/

/-- With the end of the tokens as its bound, a reading sees whatever is left. -/
theorem nothingUnseen {extent : Extent} {tokens : List Token} (start : Nat) :
    let stop := (read extent ⟨start, tokens.drop start, tokens.length⟩).cursor
    stop.peek? = none → ∀ next ∈ stop.rest.head?, next.kind = .semicolon := by
  intro stop unseen next isNext
  have kept := Cursor.Keeps.run tokens.length (.initial extent) start (tokens.drop start)
  have placed : stop.rest = tokens.drop stop.position := kept.forward.rest_eq_drop rfl
  have sameBound : stop.bound = tokens.length := kept.bound_eq
  rw [Cursor.peek?, sameBound] at unseen
  split at unseen
  · rw [unseen] at isNext
    cases isNext
  · next beyond =>
      rw [placed, List.drop_eq_nil_of_le (Nat.le_of_not_lt beyond)] at isNext
      cases isNext

/-- The reading of each extent. -/
def Extent.reading : Extent → Cursor → Reply Node
  | .factor => Cursor.factor
  | .arithmetic => Cursor.arithmetic
  | .expression => Cursor.expression

/-- From one place to another the tokens spell a phrase, which ends there. -/
def Extent.Spans (extent : Extent) (tokens : List Token) (start finish : Nat) (node : Node) :
    Prop :=
  ∃ taken rest, tokens.drop start = taken ++ rest ∧ finish = start + taken.length ∧
    extent.Derives taken node ∧ extent.Stops taken rest

/-- A factor, arithmetic or an expression is read from some place in the tokens exactly up to the
place up to which the tokens are derived by the grammar and behind which they do not go on: no
operator follows arithmetic, no `=` follows an expression, and no parenthesis a name.  There is at
most one such place, and if there is none, the reading fails. -/
theorem phrase_language (extent : Extent) (tokens : List Token) (start : Nat) :
    let reply := extent.reading ⟨start, tokens.drop start, tokens.length⟩
    (∀ finish node, reply.outcome = .ok node ∧ reply.cursor.position = finish ↔
      extent.Spans tokens start finish node) ∧
    (∀ one two node other, extent.Spans tokens start one node →
      extent.Spans tokens start two other → one = two ∧ node = other) ∧
    ((¬ ∃ finish node, extent.Spans tokens start finish node) →
      ∃ cause, reply.outcome = .error cause) := by
  intro reply
  have asRead : reply = read extent ⟨start, tokens.drop start, tokens.length⟩ := by
    cases extent <;> rfl
  have language : ∀ finish node, reply.outcome = .ok node ∧ reply.cursor.position = finish ↔
      extent.Spans tokens start finish node := by
    intro finish node
    rw [asRead]
    constructor
    · rintro ⟨success, rfl⟩
      obtain ⟨taken, shape, placed, derived, stops⟩ := read_stops (nothingUnseen start) success
      exact ⟨taken, _, shape, placed, derived, stops⟩
    · rintro ⟨taken, rest, shape, rfl, derived, stops⟩
      have filled := List.length_pos_iff.mpr derived.filled
      have counted := congrArg List.length shape
      simp only [List.length_drop, List.length_append] at counted
      have inSight : start + taken.length ≤ tokens.length := by omega
      have found := @read_complete extent ⟨start, tokens.drop start, tokens.length⟩ taken rest node
        shape derived stops inSight
      exact ⟨congrArg Reply.outcome found, congrArg (·.cursor.position) found⟩
  refine ⟨language, ?_, ?_⟩
  · intro one two node other first second
    obtain ⟨outcome, position⟩ := (language one node).mpr first
    obtain ⟨outcomeToo, positionToo⟩ := (language two other).mpr second
    exact ⟨position.symm.trans positionToo, Except.ok.inj (outcome.symm.trans outcomeToo)⟩
  · intro nowhere
    cases outcome : reply.outcome with
    | error cause => exact ⟨cause, rfl⟩
    | ok node => exact absurd ⟨_, node, (language _ node).mp ⟨outcome, rfl⟩⟩ nowhere

end CLike.Phrase
