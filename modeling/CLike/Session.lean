/-
Module: CLike.Session
Layer: Grammar
Purpose: A series of readings over the same tokens, with a place to which the cursor can return.
Main exports: Session, Session.Call, Session.Product, Session.perform, Session.run
-/
import CLike.Statement

namespace CLike

/-- A cursor and the one that was last kept. -/
structure Session where
  cursor : Cursor
  kept : Cursor
deriving Repr, DecidableEq

namespace Session

/-- What can be asked of a session. -/
inductive Call where
  | statement
  | expression
  | arithmetic
  | factor
  | program
  | save
  | restore
deriving Repr, DecidableEq

/-- What a call gives when it succeeds. -/
inductive Product where
  | node (node : Node)
  | nodes (nodes : List Node)
  | nothing
deriving Repr

/-- The answer to a call and the session after it. -/
structure Turn where
  outcome : Except GrammarError Product
  session : Session

/-- A session over some tokens.  Until something is kept, it returns to the start. -/
def ofTokens (tokens : List Token) : Session := ⟨.ofTokens tokens, .ofTokens tokens⟩

/-- The turn that a reading makes. -/
def take {α : Type} (session : Session) (product : α → Product) (reply : Reply α) : Turn :=
  ⟨reply.outcome.map product, { session with cursor := reply.cursor }⟩

/-- Answers one call, after whatever calls came before it. -/
def perform (session : Session) : Call → Turn
  | .statement => session.take .node session.cursor.statement
  | .expression => session.take .node session.cursor.expression
  | .arithmetic => session.take .node session.cursor.arithmetic
  | .factor => session.take .node session.cursor.factor
  | .program => session.take .nodes session.cursor.program
  | .save => ⟨.ok .nothing, { session with kept := session.cursor }⟩
  | .restore => ⟨.ok .nothing, { session with cursor := session.kept }⟩

/-- Answers some calls one after the other, whether or not the ones before succeed. -/
def run : Session → List Call → List Turn
  | _, [] => []
  | session, call :: later =>
    let turn := session.perform call
    turn :: turn.session.run later

end Session

end CLike
