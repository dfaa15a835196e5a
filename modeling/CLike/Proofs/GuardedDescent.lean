/-
Module: CLike.Proofs.GuardedDescent
Layer: Proofs
Purpose: The readings once more, as a recursive descent that knows all tokens and keeps a place in
  them.  Nothing is taken on trust: each look at a token, each slice and each move is checked, and
  so is the progress of each loop.
Main exports: Descent.Breach, Descent.Stop, Descent.stand, Descent.look, Descent.slice,
  Descent.pass, Descent.beyond, Descent.factor, Descent.arithmetic, Descent.expression,
  Descent.statement, Descent.program, Descent.perform
-/
import CLike.Session

namespace CLike.Descent

/-!
### Checks

A place has to stay at or before the bound, and the bound at or before the end of the tokens.  A
check that fails is a breach, which no later step can make good.
-/

/-- What must not happen. -/
inductive Breach where
  /-- A place lies behind the bound, or the bound behind the tokens. -/
  | place
  /-- A slice or an element of a slice is asked for that does not exist. -/
  | range
  /-- A loop comes round without having moved. -/
  | standstill
deriving Repr, DecidableEq

/-- Why a descent ends before its time: tokens that cannot be read, and where, or a breach. -/
inductive Stop where
  | fault (cause : GrammarError) (place : Nat)
  | breach (reason : Breach)
deriving Repr, DecidableEq

/-- The places behind some place, up to the bound. -/
abbrev Onward (bound place : Nat) : Type := { next : Nat // place < next ∧ next ≤ bound }

/-- The token at a place, if it is in sight. -/
def seen (tokens : List Token) (bound place : Nat) : Option Token :=
  if place < bound then tokens[place]? else none

/-- Checks where a place and its bound stand. -/
def stand (tokens : List Token) (bound place : Nat) : Except Stop Unit :=
  if place ≤ bound ∧ bound ≤ tokens.length then .ok () else .error (.breach .place)

/-- The token some way behind a place, if it is in sight. -/
def look (tokens : List Token) (bound place distance : Nat) : Except Stop (Option Token) := do
  stand tokens bound place
  .ok (seen tokens bound (place + distance))

/-- The place behind the next token. -/
def pass (tokens : List Token) (bound place : Nat) : Except Stop (Onward bound place) :=
  if inside : place < bound ∧ bound ≤ tokens.length then
    .ok ⟨place + 1, Nat.lt_succ_self place, inside.1⟩
  else .error (.breach .place)

/-- The next token and the place behind it. -/
def advance (tokens : List Token) (bound place : Nat) :
    Except Stop (Token × Onward bound place) := do
  match ← look tokens bound place 0 with
  | none => .error (.fault .unexpectedEndOfInput place)
  | some token =>
    let behind ← pass tokens bound place
    .ok (token, behind)

/-- The tokens from one place to another. -/
def slice (tokens : List Token) (start stop : Nat) : Except Stop (List Token) :=
  if start ≤ stop ∧ stop ≤ tokens.length then .ok ((tokens.drop start).take (stop - start))
  else .error (.breach .range)

/-- An element of a slice. -/
def item (span : List Token) (index : Nat) : Except Stop Token :=
  match span[index]? with
  | some token => .ok token
  | none => .error (.breach .range)

/-- A place to which a descent has come, which has to lie behind the one where it started. -/
def beyond (bound start place : Nat) : Except Stop (Onward bound start) :=
  if moved : start < place ∧ place ≤ bound then .ok ⟨place, moved⟩
  else .error (.breach .standstill)

/-!
### Phrases

The recursion is on the distance to the bound, which only the checks keep from growing.
-/

mutual

/-- Reads a factor, and gives it with the place behind it. -/
def factor (tokens : List Token) (bound place : Nat) : Except Stop (Node × Nat) := do
  match ← look tokens bound place 0 with
  | none =>
    match tokens[place]? with
    | some token => .error (.fault (.unsupportedFactor token.text) place)
    | none => .error (.fault .unexpectedEndOfInput place)
  | some token =>
    if token.kind = .integer ∨ token.kind = .character ∨ token.kind = .string then
      let behind ← pass tokens bound place
      .ok (.leaf token, behind)
    else if token.kind = .identifier then
      let following ← look tokens bound place 1
      if following.any (·.kind == .leftParen) then call tokens bound place
      else
        let behind ← pass tokens bound place
        .ok (.leaf token, behind)
    else .error (.fault (.unsupportedFactor token.text) place)
termination_by (bound - place, 1)

/-- Reads a call, from its name on. -/
def call (tokens : List Token) (bound place : Nat) : Except Stop (Node × Nat) := do
  let (name, ⟨opening, _⟩) ← advance tokens bound place
  let (_, ⟨inside, _⟩) ← advance tokens bound opening
  let (read, stop) ← arguments tokens bound true [] inside
  .ok (.call name read, stop)
termination_by (bound - place, 0)

/-- Reads the arguments that follow those read earlier, the latest of which is the first, and the
closing parenthesis. -/
def arguments (tokens : List Token) (bound : Nat) (expecting : Bool) (earlier : List Node)
    (place : Nat) : Except Stop (List Node × Nat) := do
  match ← look tokens bound place 0 with
  | none => .error (.fault .unclosedCall place)
  | some token =>
    if token.kind = .rightParen then
      let behind ← pass tokens bound place
      .ok (earlier.reverse, behind)
    else if token.kind = .comma then
      let ⟨behind, _⟩ ← pass tokens bound place
      arguments tokens bound true earlier behind
    else if !expecting then .error (.fault .adjacentArguments place)
    else
      let (argument, stop) ← arithmetic tokens bound place
      let ⟨next, _⟩ ← beyond bound place stop
      arguments tokens bound false (argument :: earlier) next
termination_by (bound - place, 3)

/-- Reads a chain of factors. -/
def arithmetic (tokens : List Token) (bound place : Nat) : Except Stop (Node × Nat) := do
  let (left, stop) ← factor tokens bound place
  let ⟨next, _⟩ ← beyond bound place stop
  operations tokens bound left next
termination_by (bound - place, 2)

/-- Reads the operators and factors that follow a chain. -/
def operations (tokens : List Token) (bound : Nat) (left : Node) (place : Nat) :
    Except Stop (Node × Nat) := do
  let following ← look tokens bound place 0
  if following.any (·.kind.isArithmetic) then
    let (operator, ⟨operand, _⟩) ← advance tokens bound place
    let (right, stop) ← factor tokens bound operand
    let ⟨next, _⟩ ← beyond bound place stop
    operations tokens bound (.operation operator left right) next
  else .ok (left, place)
termination_by (bound - place, 2)

end

/-- Reads the assignments that follow an expression. -/
def assignments (tokens : List Token) (bound : Nat) (left : Node) (place : Nat) :
    Except Stop (Node × Nat) := do
  let following ← look tokens bound place 0
  if following.any (·.kind == .assign) then
    let (operator, ⟨operand, _⟩) ← advance tokens bound place
    let (right, stop) ← arithmetic tokens bound operand
    let ⟨next, _⟩ ← beyond bound place stop
    assignments tokens bound (.operation operator left right) next
  else .ok (left, place)
termination_by bound - place

/-- Reads an expression. -/
def expression (tokens : List Token) (bound place : Nat) : Except Stop (Node × Nat) := do
  let (left, stop) ← arithmetic tokens bound place
  assignments tokens bound left stop

/-!
### Declarations
-/

/-- Reads parameters and the closing parenthesis. -/
def parameters (tokens : List Token) (bound : Nat) (expecting : Bool) (place : Nat) :
    Except Stop (List Token × Nat) := do
  match ← look tokens bound place 0 with
  | none => .error (.fault .unclosedFunctionDeclaration place)
  | some token =>
    if token.kind = .rightParen then
      let behind ← pass tokens bound place
      .ok ([], behind)
    else if token.kind = .comma then
      let ⟨behind, _⟩ ← pass tokens bound place
      parameters tokens bound true behind
    else if !expecting then .error (.fault .adjacentArguments place)
    else if token.kind = .intType ∨ token.kind = .charType then
      let (type, ⟨behindType, _⟩) ← advance tokens bound place
      let following ← look tokens bound behindType 0
      if following.any (·.kind == .identifier) then
        let ⟨behindName, _⟩ ← pass tokens bound behindType
        let (types, stop) ← parameters tokens bound false behindName
        .ok (type :: types, stop)
      else
        let (types, stop) ← parameters tokens bound false behindType
        .ok (type :: types, stop)
    else .error (.fault .parameterWithoutType place)
termination_by bound - place

/-- Reads the declaration of a variable, from its type on. -/
def variableDeclaration (tokens : List Token) (bound place : Nat) : Except Stop (Node × Nat) := do
  let (type, ⟨behindType, _⟩) ← advance tokens bound place
  let (name, ⟨behindName, _⟩) ← advance tokens bound behindType
  .ok (.variableDeclaration name type, behindName)

/-- Reads the declaration of a function, from its type on. -/
def functionDeclaration (tokens : List Token) (bound place : Nat) : Except Stop (Node × Nat) := do
  let (returnType, ⟨behindType, _⟩) ← advance tokens bound place
  let (name, ⟨behindName, _⟩) ← advance tokens bound behindType
  let following ← look tokens bound behindName 0
  if following.any (·.kind == .leftParen) then
    let ⟨inside, _⟩ ← pass tokens bound behindName
    let (types, stop) ← parameters tokens bound true inside
    .ok (.functionDeclaration name returnType types, stop)
  else .error (.fault .danglingFunctionDeclaration behindName)

/-- Reads a declaration whose type is the next token. -/
def declaration (tokens : List Token) (bound place : Nat) : Except Stop (Node × Nat) :=
  match tokens[place + 1]? with
  | none => .error (.fault .danglingDeclaration place)
  | some next =>
    if next.kind = .identifier then do
      let visible ← slice tokens place bound
      if visible.any (·.kind == .leftParen) then functionDeclaration tokens bound place
      else variableDeclaration tokens bound place
    else .error (.fault .badDeclaration place)

/-!
### Statements and programs
-/

/-- Judges the tokens of an assignment, which ends at the given place. -/
def judge (span : List Token) (stop : Nat) : Except Stop Unit := do
  let length := span.findIdx (·.kind == .assign)
  let first ← item span 0
  if 1 < length then
    if !first.kind.isType then .error (.fault .definitionWithoutType stop)
    else
      let last ← item span (length - 1)
      if last.kind ≠ .identifier then .error (.fault .definitionWithoutName stop)
      else .ok ()
  else if first.kind ≠ .identifier then .error (.fault .badAssignment stop)
  else .ok ()

/-- Judges an assignment that was read from one place to another. -/
def validate (tokens : List Token) (start stop : Nat) : Except Stop Unit := do
  let span ← slice tokens start stop
  judge span stop

/-- Reads a statement up to its semicolon. -/
def statementBody (tokens : List Token) (bound place : Nat) : Except Stop (Node × Nat) := do
  let first ← look tokens bound place 0
  if first.any (·.kind.isType) then declaration tokens bound place
  else
    let (node, stop) ← expression tokens bound place
    if node.token.kind = .assign then
      validate tokens place stop
      .ok (node, stop)
    else if node.token.kind = .call then .ok (node, stop)
    else .error (.fault .danglingExpression stop)

/-- Reads a statement and its semicolon, which is the bound of the body only. -/
def statement (tokens : List Token) (bound place : Nat) : Except Stop (Node × Nat) := do
  let remaining ← slice tokens place tokens.length
  let semicolon := place + remaining.findIdx (·.kind == .semicolon)
  stand tokens semicolon place
  let (node, stop) ← statementBody tokens semicolon place
  stand tokens bound stop
  match tokens[stop]? with
  | none => .error (.fault .missingSemicolon stop)
  | some token =>
    if token.kind = .semicolon then
      let ⟨behind, _⟩ ← pass tokens bound stop
      .ok (node, behind)
    else .error (.fault .missingSemicolon stop)

/-- Reads statements until the tokens run out. -/
def program (tokens : List Token) (bound place : Nat) : Except Stop (List Node × Nat) := do
  if tokens.length ≤ place then .ok ([], place)
  else
    let (node, stop) ← statement tokens bound place
    let ⟨next, _⟩ ← beyond bound place stop
    let (nodes, last) ← program tokens bound next
    .ok (node :: nodes, last)
termination_by bound - place

/-- What a reading gives, as an answer to a call. -/
def giving {α : Type} (product : α → Session.Product) (reading : Except Stop (α × Nat)) :
    Except Stop (Session.Product × Nat) := do
  let (result, stop) ← reading
  .ok (product result, stop)

/-- What a session answers to a call, and the place to which it moves. -/
def perform (tokens : List Token) (session : Session) :
    Session.Call → Except Stop (Session.Product × Nat)
  | .statement => giving .node (statement tokens session.cursor.bound session.cursor.position)
  | .expression => giving .node (expression tokens session.cursor.bound session.cursor.position)
  | .arithmetic => giving .node (arithmetic tokens session.cursor.bound session.cursor.position)
  | .factor => giving .node (factor tokens session.cursor.bound session.cursor.position)
  | .program => giving .nodes (program tokens session.cursor.bound session.cursor.position)
  | .save => .ok (.nothing, session.cursor.position)
  | .restore => .ok (.nothing, session.kept.position)

end CLike.Descent
