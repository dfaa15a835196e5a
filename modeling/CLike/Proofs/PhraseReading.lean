/-
Module: CLike.Proofs.PhraseReading
Layer: Proofs
Purpose: Reading token by token with a stack of open calls reads exactly the phrases of the grammar.
Main exports: Phrase.State.feed, Phrase.State.settled?, Grammar.Arithmetic.feed,
  Phrase.Extent.Derives, Phrase.State.Reads, Phrase.State.Reads.step, Phrase.read_sound,
  Phrase.expression_complete
-/
import CLike.Proofs.Grammar
import CLike.Proofs.Sight

namespace CLike.Phrase

open Grammar

/-!
### Feeding tokens

While the tokens belong to the phrase, a reading is a walk from state to state.
-/

/-- The state after some tokens, if all of them belong to the phrase. -/
def State.feed : State → List Token → Option State
  | state, [] => some state
  | state, token :: rest =>
    match state.step token with
    | .more next => next.feed rest
    | _ => none

theorem State.feed_cons {state next : State} {token : Token}
    (goesOn : state.step token = .more next) (rest : List Token) :
    state.feed (token :: rest) = next.feed rest := by
  rw [feed, goesOn]

theorem State.feed_append {state next : State} {tokens : List Token}
    (fed : state.feed tokens = some next) (more : List Token) :
    state.feed (tokens ++ more) = next.feed more := by
  induction tokens generalizing state with
  | nil =>
      rw [feed] at fed
      rw [List.nil_append, Option.some.inj fed]
  | cons token rest ih =>
      rw [feed] at fed
      split at fed
      · next goesOn =>
          rw [List.cons_append, feed_cons goesOn]
          exact ih fed
      · cases fed

/-- A run passes the tokens that belong to the phrase, as long as they are in sight. -/
theorem State.run_feed {state next : State} {tokens : List Token} {bound position : Nat}
    (fed : state.feed tokens = some next) (inSight : position + tokens.length ≤ bound)
    (rest : List Token) :
    state.run bound position (tokens ++ rest) =
      next.run bound (position + tokens.length) rest := by
  induction tokens generalizing state position with
  | nil =>
      rw [feed] at fed
      rw [Option.some.inj fed]
      rfl
  | cons token tokens ih =>
      rw [List.length_cons] at inSight
      rw [feed] at fed
      split at fed
      · next goesOn =>
          have before : position < bound := by omega
          rw [List.cons_append, run, if_pos before, goesOn]
          simp only
          rw [ih fed (by omega), List.length_cons, Nat.add_right_comm, Nat.add_assoc]
      · cases fed

/-- The phrase that stands complete in a state, and what it is part of.  A name that has just been
read is complete as long as no parenthesis follows. -/
def State.settled? : State → Option (Node × Context)
  | .named name waiting context => some (join waiting (.leaf name), context)
  | .chain phrase context => some (phrase, context)
  | _ => none

theorem State.step_of_settled? {state : State} {phrase : Node} {context : Context} {token : Token}
    (settled : state.settled? = some (phrase, context)) (noCall : token.kind ≠ .leftParen) :
    state.step token = chainStep phrase context token := by
  cases state with
  | operand waiting context => cases settled
  | named name waiting context =>
      cases settled
      rw [step, if_neg noCall]
  | chain phrase context =>
      cases settled
      rfl
  | between expecting call outer => cases settled

theorem State.finish_of_settled? {state : State} {phrase : Node} {context : Context}
    (settled : state.settled? = some (phrase, context)) (beyond? : Option Token) :
    state.finish beyond? = finishChain phrase context := by
  cases state with
  | operand waiting context => cases settled
  | named name waiting context =>
      cases settled
      rfl
  | chain phrase context =>
      cases settled
      rfl
  | between expecting call outer => cases settled

/-!
### Every derivation is read

The induction is on the derivation.  A derivation of a factor is read in whatever context, with
whatever operand waiting, so that the same statement serves the operands of a chain and the
arguments of a call.
-/

/-- A factor by itself is no chain; all other phrases go on behind an operator. -/
def Context.Chains : Context → Prop
  | .whole extent _ => extent ≠ .factor
  | .argument _ _ => True

theorem State.step_literal {token : Token} (isLiteral : IsLiteral token)
    (waiting : Option Pending) (context : Context) :
    (operand waiting context).step token =
      .more (.chain (join waiting (.leaf token)) context) :=
  if_pos isLiteral

theorem State.step_name {name : Token} (isName : name.kind = .identifier)
    (waiting : Option Pending) (context : Context) :
    (operand waiting context).step name = .more (.named name waiting context) := by
  have noLiteral : ¬ (name.kind = .integer ∨ name.kind = .character ∨ name.kind = .string) := by
    simp [isName]
  rw [step, operandStep, if_neg noLiteral, if_pos isName]

theorem chainStep_operator {phrase : Node} {context : Context} {operator : Token}
    (chains : context.Chains) (isOperator : operator.kind.isArithmetic = true) :
    chainStep phrase context operator = .more (.operand (some ⟨phrase, operator⟩) context) := by
  cases context with
  | whole extent assigned =>
      rw [chainStep, if_pos ⟨chains, isOperator⟩]
  | argument call outer => rw [chainStep, if_pos isOperator]

/-- Inside a call the arguments up to some place have been read.  Where no other argument can follow
at once, the last one is still a chain that an operator would prolong. -/
def State.Inside (fresh : Bool) (call : OpenCall) (outer : Context) (state : State) : Prop :=
  match fresh with
  | true => state = .between true call outer
  | false => ∃ phrase earlier, state.settled? = some (phrase, .argument earlier outer) ∧
      call = earlier.push phrase

/-- Inside a call all that counts of a token is what it does between the arguments, unless it
prolongs the last one. -/
theorem State.Inside.step {fresh : Bool} {call : OpenCall} {outer : Context} {state : State}
    {token : Token} (inside : state.Inside fresh call outer) (noCall : token.kind ≠ .leftParen)
    (noOperator : token.kind.isArithmetic = false) :
    state.step token = betweenStep fresh call outer token := by
  cases fresh with
  | true =>
      obtain rfl := inside
      rfl
  | false =>
      rcases inside with ⟨phrase, earlier, settled, rfl⟩
      rw [step_of_settled? settled noCall, chainStep, noOperator]
      rfl

/-- Where an argument can follow, a token that is neither a comma nor a closing parenthesis is read
as an operand. -/
theorem State.step_between {call : OpenCall} {outer : Context} {token : Token}
    (noClose : token.kind ≠ .rightParen) (noComma : token.kind ≠ .comma) :
    (between true call outer).step token = (operand none (.argument call outer)).step token := by
  simp only [step, betweenStep, if_neg noClose, if_neg noComma, if_true]

/-- Where an argument can follow, its first token is read as an operand. -/
theorem State.feed_between {call : OpenCall} {outer : Context} {first : Token}
    (starts : IsLiteral first ∨ first.kind = .identifier) (rest : List Token) :
    (State.between true call outer).feed (first :: rest) =
      (State.operand none (.argument call outer)).feed (first :: rest) := by
  have noClose : first.kind ≠ .rightParen := by
    rcases starts with (kind | kind | kind) | kind <;> rw [kind] <;> decide
  have noComma : first.kind ≠ .comma := by
    rcases starts with (kind | kind | kind) | kind <;> rw [kind] <;> decide
  rw [feed, feed, step_between noClose noComma]

end CLike.Phrase

namespace CLike.Grammar

open Phrase

mutual

theorem Factor.feed {tokens : List Token} {node : Node} :
    Factor tokens node → ∀ waiting context, ∃ state,
      (State.operand waiting context).feed tokens = some state ∧
        state.settled? = some (join waiting node, context)
  | .literal isLiteral => by
      intro waiting context
      refine ⟨.chain _ context, ?_, rfl⟩
      exact State.feed_cons (State.step_literal isLiteral waiting context) []
  | .name isName => by
      intro waiting context
      refine ⟨.named _ waiting context, ?_, rfl⟩
      exact State.feed_cons (State.step_name isName waiting context) []
  | @Factor.call name opening closing _ _ arguments isName opens inside closes => by
      intro waiting context
      obtain ⟨state, fed, isInside⟩ := Separated.feed inside waiting name context
      refine ⟨.chain (OpenCall.close ⟨waiting, name, arguments.reverse⟩) context, ?_, ?_⟩
      · have named := State.step_name isName waiting context
        have opened : (State.named name waiting context).step opening =
            .more (.between true ⟨waiting, name, []⟩ context) := if_pos opens
        have closed := isInside.step (by rw [closes]; decide) (by rw [closes]; decide)
        rw [betweenStep, if_pos closes] at closed
        rw [State.feed_cons named, State.feed_cons opened, State.feed_append fed,
          State.feed_cons closed]
        rfl
      · rw [State.settled?, OpenCall.close, List.reverse_reverse]

theorem Arithmetic.feed {tokens : List Token} {node : Node} :
    Arithmetic tokens node → ∀ context, context.Chains → ∃ state,
      (State.operand none context).feed tokens = some state ∧
        state.settled? = some (node, context)
  | .factor alone => fun context _ => Factor.feed alone none context
  | @Arithmetic.operation _ _ operator left _ first isOperator second => by
      intro context chains
      obtain ⟨middle, fedFirst, settledFirst⟩ := Arithmetic.feed first context chains
      obtain ⟨state, fedSecond, settled⟩ := Factor.feed second (some ⟨left, operator⟩) context
      refine ⟨state, ?_, settled⟩
      have noCall : operator.kind ≠ .leftParen := by
        intro kind
        rw [kind] at isOperator
        cases isOperator
      have goesOn := State.step_of_settled? settledFirst noCall
      rw [chainStep_operator chains isOperator] at goesOn
      rw [State.feed_append fedFirst, State.feed_cons goesOn, fedSecond]

theorem Separated.feed {fresh : Bool} {tokens : List Token} {arguments : List Node} :
    Separated Arithmetic fresh tokens arguments → ∀ waiting callee context, ∃ state,
      (State.between true ⟨waiting, callee, []⟩ context).feed tokens = some state ∧
        state.Inside fresh ⟨waiting, callee, arguments.reverse⟩ context
  | .nil => fun waiting callee context => ⟨_, rfl, rfl⟩
  | .comma before isComma => by
      intro waiting callee context
      obtain ⟨state, fed, isInside⟩ := Separated.feed before waiting callee context
      refine ⟨_, ?_, rfl⟩
      have passed := isInside.step (by rw [isComma]; decide) (by rw [isComma]; decide)
      rw [betweenStep, if_neg (by rw [isComma]; decide), if_pos isComma] at passed
      rw [State.feed_append fed, State.feed_cons passed]
      rfl
  | @Separated.item _ _ _ _ earlier argument before next => by
      intro waiting callee context
      obtain ⟨state, fed, isInside⟩ := Separated.feed before waiting callee context
      obtain rfl := isInside
      obtain ⟨final, fedNext, settled⟩ :=
        Arithmetic.feed next (.argument ⟨waiting, callee, earlier.reverse⟩ context) trivial
      rcases next.exists_head with ⟨first, rest, rfl, starts⟩
      refine ⟨final, ?_, argument, ⟨waiting, callee, earlier.reverse⟩, settled, ?_⟩
      · rw [State.feed_append fed, State.feed_between starts, fedNext]
      · simp [OpenCall.push]

end

theorem Expression.feed {tokens : List Token} {node : Node} (expression : Expression tokens node) :
    ∃ state phrase assigned, (State.initial .expression).feed tokens = some state ∧
      state.settled? = some (phrase, .whole .expression assigned) ∧ join assigned phrase = node := by
  induction expression with
  | arithmetic alone =>
      obtain ⟨state, fed, settled⟩ := alone.feed (.whole .expression none) nofun
      exact ⟨state, _, none, fed, settled, rfl⟩
  | @assignment tokens more operator left right _ assigns second ih =>
      rcases ih with ⟨middle, phrase, assigned, fedFirst, settledFirst, rfl⟩
      obtain ⟨state, fedSecond, settled⟩ :=
        second.feed (.whole .expression (some ⟨join assigned phrase, operator⟩)) nofun
      refine ⟨state, right, _, ?_, settled, rfl⟩
      have noCall : operator.kind ≠ .leftParen := by
        rw [assigns]
        decide
      have goesOn := State.step_of_settled? settledFirst noCall
      rw [chainStep, if_neg (by rw [assigns]; decide), if_pos ⟨rfl, assigns⟩] at goesOn
      rw [State.feed_append fedFirst, State.feed_cons goesOn, fedSecond]

end CLike.Grammar

namespace CLike.Phrase

open Grammar

/-- An expression that fills the tokens in sight is read as what it spells. -/
theorem expression_complete {cursor : Cursor} {tokens rest : List Token} {node : Node}
    (expression : Expression tokens node) (shape : cursor.rest = tokens ++ rest)
    (fills : cursor.position + tokens.length = cursor.bound) :
    cursor.expression = ⟨.ok node, ⟨cursor.bound, rest, cursor.bound⟩⟩ := by
  rcases expression.feed with ⟨state, phrase, assigned, fed, settled, rfl⟩
  rw [Cursor.expression, read, shape, State.run_feed fed (Nat.le_of_eq fills), fills]
  cases rest with
  | nil =>
      rw [State.run, State.finish_of_settled? settled]
      rfl
  | cons token more =>
      rw [State.run, if_neg (Nat.lt_irrefl _), State.finish_of_settled? settled]
      rfl

/-!
### Whatever is read has a derivation

What has been read so far is spread over the state: the phrase under way, the operand that waits for
it, and one open call around the other, each with an operand that waits for its value.  `Reads` says
which tokens a state stands for, and every step adds its token to them.
-/

/-- What a reading of each extent has to find. -/
def Extent.Derives : Extent → List Token → Node → Prop
  | .factor => Factor
  | .arithmetic => Arithmetic
  | .expression => Expression

/-- What a chain in some context has to be. -/
def Context.Derives : Context → List Token → Node → Prop
  | .whole .factor _ => Factor
  | _ => Arithmetic

/-- The tokens are those of an operand that waits, and of its operator. -/
def Waits (context : Context) : Option Pending → List Token → Prop
  | none, tokens => tokens = []
  | some ⟨left, operator⟩, tokens => context.Chains ∧ operator.kind.isArithmetic = true ∧
      ∃ before, tokens = before ++ [operator] ∧ Arithmetic before left

/-- The tokens are those of an open call, from the operand that waits for its value on. -/
def OpenCall.Reads (fresh : Bool) (call : OpenCall) (outer : Context) (tokens : List Token) :
    Prop :=
  ∃ waiting opening inside, tokens = waiting ++ call.callee :: opening :: inside ∧
    call.callee.kind = .identifier ∧ opening.kind = .leftParen ∧
    Waits outer call.waiting waiting ∧
    Separated Arithmetic fresh inside call.arguments.reverse

/-- The tokens before a chain in some context, all of them read for the given extent. -/
def Context.Reads (extent : Extent) : Context → List Token → Prop
  | .whole own none, tokens => own = extent ∧ tokens = []
  | .whole own (some ⟨left, operator⟩), tokens => own = extent ∧ own = .expression ∧
      operator.kind = .assign ∧ ∃ before, tokens = before ++ [operator] ∧ Expression before left
  | .argument call outer, tokens => ∃ before opened, tokens = before ++ opened ∧
      outer.Reads extent before ∧ call.Reads true outer opened

/-- The tokens that a state stands for. -/
def State.Reads (extent : Extent) : State → List Token → Prop
  | .operand waiting context, tokens => ∃ before pending, tokens = before ++ pending ∧
      context.Reads extent before ∧ Waits context waiting pending
  | .named name waiting context, tokens => ∃ before pending, tokens = before ++ pending ++ [name] ∧
      context.Reads extent before ∧ Waits context waiting pending ∧ name.kind = .identifier
  | .chain phrase context, tokens => ∃ before chain, tokens = before ++ chain ∧
      context.Reads extent before ∧ context.Derives chain phrase
  | .between fresh call outer, tokens => ∃ before opened, tokens = before ++ opened ∧
      outer.Reads extent before ∧ call.Reads fresh outer opened

theorem Context.derives_of_factor {context : Context} {tokens : List Token} {node : Node}
    (factor : Factor tokens node) : context.Derives tokens node := by
  cases context with
  | whole own assigned =>
      cases own with
      | factor => exact factor
      | arithmetic => exact .factor factor
      | expression => exact .factor factor
  | argument call outer => exact .factor factor

theorem Context.derives_iff_of_chains {context : Context} (chains : context.Chains)
    {tokens : List Token} {node : Node} :
    context.Derives tokens node ↔ Arithmetic tokens node := by
  cases context with
  | whole own assigned =>
      cases own with
      | factor => exact absurd rfl chains
      | arithmetic => exact .rfl
      | expression => exact .rfl
  | argument call outer => exact .rfl

/-- A factor completes the chain of the operand that waits for it. -/
theorem Waits.join {context : Context} {waiting : Option Pending} {pending tokens : List Token}
    {node : Node} (waits : Waits context waiting pending) (factor : Factor tokens node) :
    context.Derives (pending ++ tokens) (join waiting node) := by
  cases waiting with
  | none =>
      obtain rfl := waits
      exact Context.derives_of_factor factor
  | some waiting =>
      rcases waits with ⟨chains, isOperator, before, rfl, first⟩
      rw [Context.derives_iff_of_chains chains, List.append_assoc, List.singleton_append]
      exact .operation first isOperator factor

/-- A chain in the outermost context completes the whole phrase. -/
theorem Context.Reads.whole {extent own : Extent} {assigned : Option Pending}
    {before chain : List Token} {phrase : Node}
    (reads : (Context.whole own assigned).Reads extent before)
    (derives : (Context.whole own assigned).Derives chain phrase) :
    extent.Derives (before ++ chain) (Phrase.join assigned phrase) := by
  cases assigned with
  | none =>
      rcases reads with ⟨rfl, rfl⟩
      cases own with
      | factor => exact derives
      | arithmetic => exact derives
      | expression => exact .arithmetic derives
  | some waiting =>
      rcases reads with ⟨rfl, rfl, assigns, earlier, rfl, first⟩
      rw [List.append_assoc, List.singleton_append]
      exact .assignment first assigns derives

/-- Where a chain stands complete, its tokens are the last ones. -/
theorem State.Reads.settled {extent : Extent} {state : State} {tokens : List Token} {phrase : Node}
    {context : Context} (reads : state.Reads extent tokens)
    (settled : state.settled? = some (phrase, context)) :
    ∃ before chain, tokens = before ++ chain ∧ context.Reads extent before ∧
      context.Derives chain phrase := by
  cases state with
  | operand waiting context => cases settled
  | named name waiting context =>
      cases settled
      rcases reads with ⟨before, pending, rfl, outside, waits, isName⟩
      exact ⟨before, pending ++ [name], List.append_assoc .., outside, waits.join (.name isName)⟩
  | chain phrase context =>
      cases settled
      exact reads
  | between expecting call outer => cases settled

/-!
One lemma for each of the three functions that a step is made of says that the new token joins the
tokens read so far.
-/

theorem operandStep_reads {extent : Extent} {waiting : Option Pending} {context : Context}
    {token : Token} {next : State} {before pending : List Token}
    (outside : context.Reads extent before) (waits : Waits context waiting pending)
    (goesOn : operandStep waiting context token = .more next) :
    next.Reads extent (before ++ pending ++ [token]) := by
  unfold operandStep at goesOn
  split at goesOn
  · next isLiteral =>
      cases goesOn
      exact ⟨before, pending ++ [token], List.append_assoc .., outside,
        waits.join (.literal isLiteral)⟩
  · split at goesOn
    · next isName =>
        cases goesOn
        exact ⟨before, pending, rfl, outside, waits, isName⟩
    · cases goesOn

theorem betweenStep_reads {extent : Extent} {fresh : Bool} {call : OpenCall} {outer : Context}
    {token : Token} {next : State} {before opened : List Token}
    (outside : outer.Reads extent before) (callReads : call.Reads fresh outer opened)
    (goesOn : betweenStep fresh call outer token = .more next) :
    next.Reads extent (before ++ opened ++ [token]) := by
  have whole := callReads
  rcases callReads with ⟨waiting, opening, inside, rfl, isName, opens, waits, arguments⟩
  unfold betweenStep at goesOn
  split at goesOn
  · next closes =>
      cases goesOn
      have factor := waits.join (Factor.call isName opens arguments closes)
      exact ⟨before, _, by simp, outside, factor⟩
  · split at goesOn
    · next isComma =>
        cases goesOn
        exact ⟨before, waiting ++ call.callee :: opening :: (inside ++ [token]), by simp, outside,
          waiting, opening, inside ++ [token], rfl, isName, opens, waits,
          .comma arguments isComma⟩
    · split at goesOn
      · next expecting =>
          subst expecting
          have argument : (Context.argument call outer).Reads extent (before ++ _) :=
            ⟨before, _, rfl, outside, whole⟩
          have nothingWaits : Waits (.argument call outer) none [] := rfl
          simpa using operandStep_reads argument nothingWaits goesOn
      · cases goesOn

theorem chainStep_reads {extent : Extent} {phrase : Node} {context : Context} {token : Token}
    {next : State} {before chain : List Token} (outside : context.Reads extent before)
    (derives : context.Derives chain phrase)
    (goesOn : chainStep phrase context token = .more next) :
    next.Reads extent (before ++ chain ++ [token]) := by
  cases context with
  | whole own assigned =>
      rw [chainStep] at goesOn
      split at goesOn
      · next operator =>
          cases goesOn
          rcases operator with ⟨goesOn, isOperator⟩
          have chains : (Context.whole own assigned).Chains := goesOn
          have arithmetic : Arithmetic chain phrase :=
            (Context.derives_iff_of_chains chains).mp derives
          exact ⟨before, chain ++ [token], List.append_assoc .., outside, chains, isOperator, chain,
            rfl, arithmetic⟩
      · split at goesOn
        · next assignment =>
            cases goesOn
            rcases assignment with ⟨rfl, assigns⟩
            have sameExtent : Extent.expression = extent := by
              cases assigned with
              | none => exact outside.1
              | some waiting => exact outside.1
            subst sameExtent
            exact ⟨before ++ chain ++ [token], [], (List.append_nil _).symm,
              ⟨rfl, rfl, assigns, before ++ chain, rfl, outside.whole derives⟩, rfl⟩
        · cases goesOn
  | argument call outer =>
      rcases outside with ⟨earlier, opened, rfl, outsideCall, callReads⟩
      rw [chainStep] at goesOn
      split at goesOn
      · next isOperator =>
          cases goesOn
          exact ⟨earlier ++ opened, chain ++ [token], by simp, ⟨earlier, opened, rfl, outsideCall,
            callReads⟩, trivial, isOperator, chain, rfl, derives⟩
      · rcases callReads with ⟨waiting, opening, inside, rfl, isName, opens, waits, arguments⟩
        have pushed : (call.push phrase).Reads false outer
            (waiting ++ call.callee :: opening :: (inside ++ chain)) := by
          refine ⟨waiting, opening, inside ++ chain, rfl, isName, opens, waits, ?_⟩
          rw [OpenCall.push, List.reverse_cons]
          exact .item arguments derives
        simpa using betweenStep_reads outsideCall pushed goesOn

/-- Every step adds its token to the tokens that the state stands for. -/
theorem State.Reads.step {extent : Extent} {state next : State} {tokens : List Token}
    {token : Token} (reads : state.Reads extent tokens) (goesOn : state.step token = .more next) :
    next.Reads extent (tokens ++ [token]) := by
  cases state with
  | operand waiting context =>
      rcases reads with ⟨before, pending, rfl, outside, waits⟩
      exact operandStep_reads outside waits goesOn
  | named name waiting context =>
      rw [State.step] at goesOn
      split at goesOn
      · next opens =>
          cases goesOn
          rcases reads with ⟨before, pending, rfl, outside, waits, isName⟩
          exact ⟨before, pending ++ [name, token], by simp, outside, pending, token, [], rfl,
            isName, opens, waits, .nil⟩
      · rcases reads.settled rfl with ⟨before, chain, rfl, outside, derives⟩
        exact chainStep_reads outside derives goesOn
  | chain phrase context =>
      rcases reads with ⟨before, chain, rfl, outside, derives⟩
      exact chainStep_reads outside derives goesOn
  | between fresh call outer =>
      rcases reads with ⟨before, opened, rfl, outside, callReads⟩
      exact betweenStep_reads outside callReads goesOn

theorem operandStep_ne_done {waiting : Option Pending} {context : Context} {token : Token}
    {node : Node} : operandStep waiting context token ≠ .done node := by
  unfold operandStep
  split
  · nofun
  · split
    · nofun
    · nofun

theorem betweenStep_ne_done {fresh : Bool} {call : OpenCall} {outer : Context} {token : Token}
    {node : Node} : betweenStep fresh call outer token ≠ .done node := by
  unfold betweenStep
  split
  · nofun
  · split
    · nofun
    · split
      · exact operandStep_ne_done
      · nofun

/-- Only a chain in the outermost context can be ended by a token that is in sight. -/
theorem chainStep_done {phrase node : Node} {context : Context} {token : Token}
    (ended : chainStep phrase context token = .done node) :
    ∃ own assigned, context = .whole own assigned ∧ node = join assigned phrase := by
  cases context with
  | whole own assigned =>
      rw [chainStep] at ended
      split at ended
      · cases ended
      · split at ended
        · cases ended
        · cases ended
          exact ⟨own, assigned, rfl, rfl⟩
  | argument call outer =>
      rw [chainStep] at ended
      split at ended
      · cases ended
      · exact absurd ended betweenStep_ne_done

/-- A reading that is ended by a token has found a phrase in the tokens before it. -/
theorem State.Reads.done {extent : Extent} {state : State} {tokens : List Token} {token : Token}
    {node : Node} (reads : state.Reads extent tokens) (ended : state.step token = .done node) :
    extent.Derives tokens node := by
  have complete : ∀ phrase context, state.settled? = some (phrase, context) →
      chainStep phrase context token = .done node → extent.Derives tokens node := by
    intro phrase context settled endedChain
    rcases reads.settled settled with ⟨before, chain, rfl, outside, derives⟩
    rcases chainStep_done endedChain with ⟨own, assigned, rfl, rfl⟩
    exact outside.whole derives
  cases state with
  | operand waiting context => exact absurd ended operandStep_ne_done
  | named name waiting context =>
      rw [State.step] at ended
      split at ended
      · cases ended
      · exact complete _ _ rfl ended
  | chain phrase context => exact complete _ _ rfl ended
  | between fresh call outer => exact absurd ended betweenStep_ne_done

/-- A reading that ends with the tokens in sight has found a phrase in all of them. -/
theorem State.Reads.finish {extent : Extent} {state : State} {tokens : List Token} {node : Node}
    {beyond? : Option Token} (reads : state.Reads extent tokens)
    (ended : state.finish beyond? = .ok node) : extent.Derives tokens node := by
  have complete : ∀ phrase context, state.settled? = some (phrase, context) →
      finishChain phrase context = .ok node → extent.Derives tokens node := by
    intro phrase context settled endedChain
    rcases reads.settled settled with ⟨before, chain, rfl, outside, derives⟩
    cases context with
    | whole own assigned =>
        obtain rfl := Except.ok.inj endedChain
        exact outside.whole derives
    | argument call outer => cases endedChain
  cases state with
  | operand waiting context => cases beyond? <;> cases ended
  | named name waiting context => exact complete _ _ rfl ended
  | chain phrase context => exact complete _ _ rfl ended
  | between fresh call outer => cases ended

/-- A run that succeeds has found a phrase in the tokens before the run and those that it passed. -/
theorem State.Reads.run {extent : Extent} {state : State} {before tokens : List Token}
    {bound position : Nat} {node : Node} (reads : state.Reads extent before)
    (read : (state.run bound position tokens).outcome = .ok node) :
    ∃ taken, tokens = taken ++ (state.run bound position tokens).cursor.rest ∧
      (state.run bound position tokens).cursor.position = position + taken.length ∧
      extent.Derives (before ++ taken) node := by
  induction tokens generalizing state before position with
  | nil =>
      have ended : state.finish none = .ok node := read
      refine ⟨[], rfl, rfl, ?_⟩
      rw [List.append_nil]
      exact reads.finish ended
  | cons token rest ih =>
      rw [State.run] at read ⊢
      split at read
      · next inSight =>
          rw [if_pos inSight]
          split at read
          · next next goesOn =>
              obtain ⟨taken, restEq, positionEq, derives⟩ := ih (reads.step goesOn) read
              refine ⟨token :: taken, ?_, ?_, ?_⟩
              · rw [List.cons_append, ← restEq]
              · rw [positionEq, List.length_cons, Nat.add_assoc, Nat.add_comm 1]
              · rwa [List.append_assoc, List.singleton_append] at derives
          · next phrase ended =>
              obtain rfl := Except.ok.inj read
              refine ⟨[], rfl, rfl, ?_⟩
              rw [List.append_nil]
              exact reads.done ended
          · cases read
      · next outOfSight =>
          have ended : state.finish (some token) = .ok node := read
          rw [if_neg outOfSight]
          refine ⟨[], rfl, rfl, ?_⟩
          rw [List.append_nil]
          exact reads.finish ended

/-- Whatever is read at a cursor is a phrase that the passed tokens spell. -/
theorem read_sound {extent : Extent} {cursor : Cursor} {node : Node}
    (success : (read extent cursor).outcome = .ok node) :
    ∃ taken, cursor.rest = taken ++ (read extent cursor).cursor.rest ∧
      (read extent cursor).cursor.position = cursor.position + taken.length ∧
      extent.Derives taken node := by
  have start : (State.initial extent).Reads extent [] := ⟨[], [], rfl, ⟨rfl, rfl⟩, rfl⟩
  exact start.run success

end CLike.Phrase
