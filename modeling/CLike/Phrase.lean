/-
Module: CLike.Phrase
Layer: Grammar
Purpose: Reading factors, arithmetic and expressions, one token at a time.
Main exports: Phrase.Extent, Phrase.State, Phrase.State.step, Phrase.State.finish, Phrase.read,
  Cursor.factor, Cursor.arithmetic, Cursor.expression
-/
import CLike.Cursor

namespace CLike

/-!
The grammar of phrases is

* `expression := arithmetic ("=" arithmetic)*`,
* `arithmetic := factor (operator factor)*`, with all operators on one level,
* `factor := integer | character | string | identifier | identifier "(" arguments ")"`,

and both kinds of chain lean to the left.  Arguments are arithmetic phrases with at least one comma
between neighbours; commas may also stand before the first and behind the last.

A reading looks at one token after the other and at none twice.  What it has to remember is small:
the operand and operator that wait for a right operand, and the calls that are still open, innermost
first.  So the reading is a step function on states, and the whole work on a list of tokens is a
recursion on that list.
-/

namespace Phrase

/-- How much is read: one factor, a chain of factors, or a chain of assignments of such chains. -/
inductive Extent where
  | factor
  | arithmetic
  | expression
deriving Repr, DecidableEq

/-- A left operand and its operator, which wait for the right operand. -/
structure Pending where
  left : Node
  operator : Token

/-- Gives the right operand to what waits for one. -/
def join : Option Pending → Node → Node
  | none, right => right
  | some waiting, right => .operation waiting.operator waiting.left right

/-- A call whose closing parenthesis has not been read: what waits for its value, its name, and the
arguments so far, the latest first. -/
structure OpenCall where
  waiting : Option Pending
  callee : Token
  arguments : List Node

/-- The call with one more argument. -/
def OpenCall.push (call : OpenCall) (argument : Node) : OpenCall :=
  { call with arguments := argument :: call.arguments }

/-- The phrase that the closing parenthesis completes. -/
def OpenCall.close (call : OpenCall) : Node :=
  join call.waiting (.call call.callee call.arguments.reverse)

/-- What an arithmetic phrase is part of: the whole reading, with the assignment that waits for it,
or an argument of an open call. -/
inductive Context where
  | whole (extent : Extent) (assigned : Option Pending)
  | argument (call : OpenCall) (outer : Context)

/-- Where a reading stands. -/
inductive State where
  /-- A factor has to follow. -/
  | operand (waiting : Option Pending) (context : Context)
  /-- An identifier has been read.  It is a variable unless a parenthesis follows. -/
  | named (name : Token) (waiting : Option Pending) (context : Context)
  /-- A chain of factors has been read, which an operator would prolong. -/
  | chain (phrase : Node) (context : Context)
  /-- Inside a call, where an argument can follow if one is expected. -/
  | between (expecting : Bool) (call : OpenCall) (outer : Context)

/-- What a token does to a reading. -/
inductive Step where
  /-- The token belongs to the phrase. -/
  | more (state : State)
  /-- The phrase ended before the token. -/
  | done (phrase : Node)
  /-- The token cannot stand here. -/
  | fail (cause : GrammarError)

/-- A token where a factor has to follow. -/
def operandStep (waiting : Option Pending) (context : Context) (token : Token) : Step :=
  if token.kind = .integer ∨ token.kind = .character ∨ token.kind = .string then
    .more (.chain (join waiting (.leaf token)) context)
  else if token.kind = .identifier then .more (.named token waiting context)
  else .fail (.unsupportedFactor token.text)

/-- A token inside a call that does not prolong an argument. -/
def betweenStep (expecting : Bool) (call : OpenCall) (outer : Context) (token : Token) : Step :=
  if token.kind = .rightParen then .more (.chain call.close outer)
  else if token.kind = .comma then .more (.between true call outer)
  else if expecting then operandStep none (.argument call outer) token
  else .fail .adjacentArguments

/-- A token behind a chain of factors. -/
def chainStep (phrase : Node) : Context → Token → Step
  | .whole extent assigned, token =>
    if extent ≠ .factor ∧ token.kind.isArithmetic then
      .more (.operand (some ⟨phrase, token⟩) (.whole extent assigned))
    else if extent = .expression ∧ token.kind = .assign then
      .more (.operand none (.whole extent (some ⟨join assigned phrase, token⟩)))
    else .done (join assigned phrase)
  | .argument call outer, token =>
    if token.kind.isArithmetic then .more (.operand (some ⟨phrase, token⟩) (.argument call outer))
    else betweenStep false (call.push phrase) outer token

namespace State

/-- One token of a reading. -/
def step : State → Token → Step
  | operand waiting context, token => operandStep waiting context token
  | named name waiting context, token =>
    if token.kind = .leftParen then .more (.between true ⟨waiting, name, []⟩ context)
    else chainStep (join waiting (.leaf name)) context token
  | chain phrase context, token => chainStep phrase context token
  | between expecting call outer, token => betweenStep expecting call outer token

/-- The result for a chain of factors at the end of the tokens in sight. -/
def finishChain (phrase : Node) : Context → Except GrammarError Node
  | .whole _ assigned => .ok (join assigned phrase)
  | .argument .. => .error .unclosedCall

/-- The result at the end of the tokens in sight.  Where a factor is missing, the token behind the
end is named if there is one. -/
def finish (beyond? : Option Token) : State → Except GrammarError Node
  | operand .. =>
    match beyond? with
    | some token => .error (.unsupportedFactor token.text)
    | none => .error .unexpectedEndOfInput
  | named name waiting context => finishChain (join waiting (.leaf name)) context
  | chain phrase context => finishChain phrase context
  | between .. => .error .unclosedCall

/-- Reads on from a state, from a place in some tokens up to a bound. -/
def run (bound : Nat) : State → (position : Nat) → List Token → Reply Node
  | state, position, [] => ⟨state.finish none, ⟨position, [], bound⟩⟩
  | state, position, token :: rest =>
    if position < bound then
      match state.step token with
      | .more next => run bound next (position + 1) rest
      | .done phrase => ⟨.ok phrase, ⟨position, token :: rest, bound⟩⟩
      | .fail cause => ⟨.error cause, ⟨position, token :: rest, bound⟩⟩
    else ⟨state.finish (some token), ⟨position, token :: rest, bound⟩⟩

/-- Where a reading begins. -/
def initial (extent : Extent) : State := operand none (.whole extent none)

end State

/-- Reads a phrase at a cursor. -/
def read (extent : Extent) (cursor : Cursor) : Reply Node :=
  (State.initial extent).run cursor.bound cursor.position cursor.rest

/-- A run moves forward and keeps its bound. -/
theorem State.leadsTo_run (bound : Nat) (state : State) (position : Nat) (tokens : List Token) :
    (⟨position, tokens, bound⟩ : Cursor).LeadsTo (state.run bound position tokens).cursor := by
  induction tokens generalizing state position with
  | nil => exact .refl _
  | cons token rest ih =>
      rw [run]
      split
      · split
        · next next _ => exact .trans ⟨[token], rfl, rfl⟩ (ih next (position + 1))
        · exact .refl _
        · exact .refl _
      · exact .refl _

end Phrase

namespace Cursor

/-- Reads one factor. -/
def factor (cursor : Cursor) : Reply Node := Phrase.read .factor cursor

/-- Reads a chain of factors, as long as it goes on. -/
def arithmetic (cursor : Cursor) : Reply Node := Phrase.read .arithmetic cursor

/-- Reads a chain of assignments of chains of factors, as long as it goes on. -/
def expression (cursor : Cursor) : Reply Node := Phrase.read .expression cursor

theorem leadsTo_expression (cursor : Cursor) : cursor.LeadsTo cursor.expression.cursor :=
  Phrase.State.leadsTo_run cursor.bound _ cursor.position cursor.rest

end Cursor

end CLike
