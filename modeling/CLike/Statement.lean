/-
Module: CLike.Statement
Layer: Grammar
Purpose: Reading statements and programs.
Main exports: checkAssignment, Cursor.statement, Cursor.program, parseProgram
-/
import CLike.Declaration
import CLike.Phrase

namespace CLike

/-- Judges the tokens of an assignment by those before its first `=`: a single one has to be a name,
and several have to be a type and more, up to a name. -/
def checkAssignment (span : List Token) : Except GrammarError Unit :=
  match span.takeWhile (·.kind ≠ .assign) with
  | first :: second :: more =>
    if !first.kind.isType then .error .definitionWithoutType
    else if ((second :: more).getLast (List.cons_ne_nil _ _)).kind ≠ .identifier then
      .error .definitionWithoutName
    else .ok ()
  | [single] => if single.kind ≠ .identifier then .error .badAssignment else .ok ()
  | [] => .error .badAssignment

namespace Cursor

/-- Lets an expression stand as a statement if it is an assignment, which is judged by the tokens
that it was read from, or a call. -/
def asStatement (span : List Token) (node : Node) : Except GrammarError Node :=
  if node.token.kind = .assign then (checkAssignment span).map fun _ => node
  else if node.token.kind = .call then .ok node
  else .error .danglingExpression

/-- Reads an expression that can stand as a statement.  The cursor is behind the expression also
when it cannot. -/
def expressionStatement (cursor : Cursor) : Reply Node :=
  let reply := cursor.expression
  let span := cursor.rest.take (reply.cursor.position - cursor.position)
  ⟨reply.outcome.bind (asStatement span), reply.cursor⟩

/-- Reads a statement up to its semicolon, which is the first one and out of sight. -/
def statementBody (cursor : Cursor) : Reply Node :=
  match cursor.peek? with
  | some token =>
    if token.kind.isType then cursor.declaration token else cursor.expressionStatement
  | none => cursor.expressionStatement

/-- Takes the semicolon that has to follow a statement. -/
def terminated (reply : Reply Node) : Reply Node :=
  match reply.outcome, reply.cursor.rest with
  | .error cause, _ => ⟨.error cause, reply.cursor⟩
  | .ok _, [] => ⟨.error .missingSemicolon, reply.cursor⟩
  | .ok node, token :: _ =>
    if token.kind = .semicolon then ⟨.ok node, reply.cursor.advance⟩
    else ⟨.error .missingSemicolon, reply.cursor⟩

/-- Reads a statement with its semicolon.  While its body is read, nothing from the first semicolon
on is in sight; afterwards the bound is what it was before. -/
def statement (cursor : Cursor) : Reply Node :=
  let body := (cursor.withBound cursor.semicolonIndex).statementBody
  terminated ⟨body.outcome, body.cursor.withBound cursor.bound⟩

theorem leadsTo_statementBody (cursor : Cursor) : cursor.LeadsTo cursor.statementBody.cursor := by
  have asExpression : cursor.LeadsTo cursor.expressionStatement.cursor := cursor.leadsTo_expression
  unfold statementBody
  split
  · split
    · exact leadsTo_declaration _ _
    · exact asExpression
  · exact asExpression

/-- A statement that was read took at least its semicolon. -/
theorem length_statement_lt {cursor : Cursor} {node : Node}
    (success : cursor.statement.outcome = .ok node) :
    cursor.statement.cursor.rest.length < cursor.rest.length := by
  have body := (leadsTo_statementBody (cursor.withBound cursor.semicolonIndex)).length_le
  unfold statement terminated at success ⊢
  dsimp only at success ⊢
  split at success
  · cases success
  · cases success
  · next token rest _ shape =>
      split at success
      · next semicolon =>
          rw [if_pos semicolon]
          simp only [advance, withBound] at shape body ⊢
          rw [shape] at body ⊢
          exact body
      · cases success

/-- Reads statements until the tokens run out.  Statements before a failure are lost, but the cursor
stays where the failure was found. -/
def program (cursor : Cursor) : Reply (List Node) :=
  if cursor.atEnd then ⟨.ok [], cursor⟩
  else
    let reply := cursor.statement
    match _read : reply.outcome with
    | .error cause => ⟨.error cause, reply.cursor⟩
    | .ok node => reply.cursor.program.map (node :: ·)
termination_by cursor.rest.length
decreasing_by exact length_statement_lt _read

end Cursor

/-- The statements of a program. -/
def parseProgram (tokens : List Token) : Except GrammarError (List Node) :=
  (Cursor.ofTokens tokens).program.outcome

end CLike
