/-
Module: CLike.Cursor
Layer: Grammar
Purpose: A reading position in a list of tokens, the errors that reading can end in, and the reply
  of a reading, which keeps the position also when it fails.
Main exports: GrammarError, GrammarError.message, Cursor, Cursor.peek?, Cursor.advance,
  Cursor.LeadsTo, Reply
-/
import CLike.Node

namespace CLike

/-- Why tokens cannot be read as the phrase that is asked for. -/
inductive GrammarError where
  | adjacentArguments
  | unclosedCall
  | unclosedFunctionDeclaration
  | unsupportedFactor (text : String)
  | missingSemicolon
  | definitionWithoutType
  | definitionWithoutName
  | badAssignment
  | danglingExpression
  | danglingDeclaration
  | badDeclaration
  | danglingFunctionDeclaration
  | parameterWithoutType
  | unexpectedEndOfInput
deriving Repr, DecidableEq

namespace GrammarError

/-- The wording of an error. -/
def message : GrammarError → String
  | adjacentArguments => "unexpected two arguments in a row"
  | unclosedCall => "unclosed function call"
  | unclosedFunctionDeclaration => "unclosed function declaration"
  | unsupportedFactor text => "unsupported factor token: " ++ text
  | missingSemicolon => "missing an expected semicolon at the end of the statement"
  | definitionWithoutType => "missing a type at variable definition"
  | definitionWithoutName => "missing a variable name at variable definition"
  | badAssignment => "assignment without lvalue in lhs"
  | danglingExpression =>
    "Expected an assignment or function call when making a dangling expression"
  | danglingDeclaration => "Expected variable / function name declaration"
  | badDeclaration => "Unexpected declaration"
  | danglingFunctionDeclaration => "Expected opening parentheses in function declaration"
  | parameterWithoutType => "Expected parameter type in function declaration"
  | unexpectedEndOfInput => "unexpected end of input"

end GrammarError

/-- A place in a list of tokens: how many tokens lie before it, and the tokens from there on.  The
token at `bound` and those behind it are out of sight for most readings. -/
structure Cursor where
  position : Nat
  rest : List Token
  bound : Nat
deriving Repr, DecidableEq

namespace Cursor

/-- The start of some tokens, with all of them in sight. -/
def ofTokens (tokens : List Token) : Cursor := ⟨0, tokens, tokens.length⟩

/-- Whether all tokens have been read. -/
def atEnd (cursor : Cursor) : Bool := cursor.rest.isEmpty

/-- The number of tokens before and behind the cursor together. -/
def tokenCount (cursor : Cursor) : Nat := cursor.position + cursor.rest.length

/-- The tokens in sight. -/
def visible (cursor : Cursor) : List Token := cursor.rest.take (cursor.bound - cursor.position)

/-- The next token, if it is in sight. -/
def peek? (cursor : Cursor) : Option Token :=
  if cursor.position < cursor.bound then cursor.rest.head? else none

/-- The cursor behind the next token. -/
def advance (cursor : Cursor) : Cursor :=
  match cursor.rest with
  | [] => cursor
  | _ :: rest => { cursor with position := cursor.position + 1, rest }

/-- The cursor behind the next token if that is in sight and of the given class, and the same cursor
otherwise. -/
def skip (kind : Kind) (cursor : Cursor) : Cursor :=
  if cursor.peek?.any (·.kind == kind) then cursor.advance else cursor

/-- The cursor with another bound. -/
def withBound (bound : Nat) (cursor : Cursor) : Cursor := { cursor with bound }

/-- The place of the first semicolon that is not before the cursor, or else the number of tokens. -/
def semicolonIndex (cursor : Cursor) : Nat :=
  cursor.position + cursor.rest.findIdx (·.kind == .semicolon)

/-!
### Moving forward

Every reading moves the cursor forward or leaves it, and never loses count of the tokens passed.
-/

/-- The second cursor lies at or behind the first one in the same tokens. -/
def LeadsTo (start finish : Cursor) : Prop :=
  ∃ taken, start.rest = taken ++ finish.rest ∧ finish.position = start.position + taken.length

theorem LeadsTo.refl (cursor : Cursor) : cursor.LeadsTo cursor := ⟨[], rfl, rfl⟩

theorem LeadsTo.trans {start middle finish : Cursor} (first : start.LeadsTo middle)
    (second : middle.LeadsTo finish) : start.LeadsTo finish := by
  obtain ⟨before, restBefore, positionBefore⟩ := first
  obtain ⟨after, restAfter, positionAfter⟩ := second
  refine ⟨before ++ after, ?_, ?_⟩
  · rw [restBefore, restAfter, List.append_assoc]
  · rw [positionAfter, positionBefore, List.length_append, Nat.add_assoc]

/-- Moving forward leaves no more tokens than there were. -/
theorem LeadsTo.length_le {start finish : Cursor} (forward : start.LeadsTo finish) :
    finish.rest.length ≤ start.rest.length := by
  obtain ⟨taken, rest, -⟩ := forward
  rw [rest, List.length_append]
  exact Nat.le_add_left ..

theorem leadsTo_advance (cursor : Cursor) : cursor.LeadsTo cursor.advance := by
  unfold advance
  split
  · exact .refl cursor
  · next token rest shape => exact ⟨[token], shape, rfl⟩

theorem leadsTo_skip (kind : Kind) (cursor : Cursor) : cursor.LeadsTo (cursor.skip kind) := by
  unfold skip
  split
  · exact cursor.leadsTo_advance
  · exact .refl cursor

/-- Passing a token that is there makes the rest shorter. -/
theorem length_advance_lt {cursor : Cursor} {token : Token} (seen : cursor.peek? = some token) :
    cursor.advance.rest.length < cursor.rest.length := by
  unfold peek? at seen
  split at seen
  · obtain ⟨rest, shape⟩ := List.head?_eq_some_iff.mp seen
    simp [advance, shape]
  · cases seen

end Cursor

/-- The result of a reading: what it gave, and where it stopped, be it because it was done or
because it failed. -/
structure Reply (α : Type u) where
  outcome : Except GrammarError α
  cursor : Cursor

namespace Reply

/-- The same reading with another result. -/
def map {α : Type u} {β : Type v} (change : α → β) (reply : Reply α) : Reply β :=
  ⟨reply.outcome.map change, reply.cursor⟩

@[simp] theorem outcome_map {α : Type u} {β : Type v} (change : α → β) (reply : Reply α) :
    (reply.map change).outcome = reply.outcome.map change := rfl

@[simp] theorem cursor_map {α : Type u} {β : Type v} (change : α → β) (reply : Reply α) :
    (reply.map change).cursor = reply.cursor := rfl

end Reply

end CLike
