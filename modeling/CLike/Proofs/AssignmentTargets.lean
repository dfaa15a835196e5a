/-
Module: CLike.Proofs.AssignmentTargets
Layer: Proofs
Purpose: An assignment is checked by its tokens, and the verdict is the one that its tree calls for:
  it has to start with a name.
Main exports: Node.IsOperation, JudgesTarget, Grammar.Expression.target,
  Grammar.Expression.judgesTarget, Session.assignments_judged_by_target
-/
import CLike.Proofs.StatementSight
import Mathlib.Data.List.TakeWhile

namespace CLike

open Grammar

/-- The tree is an arithmetic operation. -/
inductive Node.IsOperation : Node → Prop where
  | operation {operator : Token} {left right : Node}
      (isArithmetic : operator.kind.isArithmetic = true) :
      IsOperation (.operation operator left right)

/-- The verdict on an assignment is the one for what it assigns to.  A name is right, a literal is
no place for a value, and a call or an operation is taken for a definition without its type. -/
structure JudgesTarget (target : Node) (verdict : Except GrammarError Unit) : Prop where
  name_iff : verdict = .ok () ↔ ∃ token, target = .leaf token ∧ token.kind = .identifier
  literal_iff : verdict = .error .badAssignment ↔ ∃ token, target = .leaf token ∧ IsLiteral token
  longer_iff : verdict = .error .definitionWithoutType ↔ target.isCall = true ∨ target.IsOperation

namespace JudgesTarget

theorem name {token : Token} (isName : token.kind = .identifier) :
    JudgesTarget (.leaf token) (.ok ()) where
  name_iff := ⟨fun _ => ⟨token, rfl, isName⟩, fun _ => rfl⟩
  literal_iff := by
    refine ⟨nofun, ?_⟩
    rintro ⟨_, ⟨⟩, isLiteral⟩
    simp [IsLiteral, isName] at isLiteral
  longer_iff := by
    refine ⟨nofun, ?_⟩
    rintro (⟨⟨⟩⟩ | ⟨⟨⟩⟩)

theorem literal {token : Token} (isLiteral : IsLiteral token) :
    JudgesTarget (.leaf token) (.error .badAssignment) where
  name_iff := by
    refine ⟨nofun, ?_⟩
    rintro ⟨_, ⟨⟩, isName⟩
    simp [IsLiteral, isName] at isLiteral
  literal_iff := ⟨fun _ => ⟨token, rfl, isLiteral⟩, fun _ => rfl⟩
  longer_iff := by
    refine ⟨nofun, ?_⟩
    rintro (⟨⟨⟩⟩ | ⟨⟨⟩⟩)

theorem longer {target : Node} (isLonger : target.isCall = true ∨ target.IsOperation) :
    JudgesTarget target (.error .definitionWithoutType) where
  name_iff := by
    refine ⟨nofun, ?_⟩
    rintro ⟨_, rfl, -⟩
    rcases isLonger with ⟨⟨⟩⟩ | ⟨⟨⟩⟩
  literal_iff := by
    refine ⟨nofun, ?_⟩
    rintro ⟨_, rfl, -⟩
    rcases isLonger with ⟨⟨⟩⟩ | ⟨⟨⟩⟩
  longer_iff := ⟨fun _ => isLonger, fun _ => rfl⟩

end JudgesTarget

/-!
### The tokens of the target

The check takes the tokens before the first `=`.  No `=` occurs inside of arithmetic, be it in a
call or outside, so these tokens are all that spell the target and nothing else.
-/

theorem takeWhile_append_assign (tokens more : List Token) {operator : Token}
    (assigns : operator.kind = .assign) :
    (tokens ++ operator :: more).takeWhile (·.kind ≠ .assign) =
      tokens.takeWhile (·.kind ≠ .assign) := by
  induction tokens with
  | nil => simp [assigns]
  | cons token tokens ih =>
      rw [List.cons_append, List.takeWhile_cons, List.takeWhile_cons, ih]

theorem Node.target_of_noAssignment {node : Node} (noAssignment : node.isAssignment = false) :
    node.target = node := by
  cases node with
  | operation => exact if_neg (ne_of_beq_false noAssignment)
  | _ => rfl

namespace Grammar

variable {tokens : List Token} {node : Node}

/-- The tokens of an expression before its first `=` are those of what it assigns to. -/
theorem Expression.target (expression : Expression tokens node) :
    Arithmetic (tokens.takeWhile (·.kind ≠ .assign)) node.target := by
  induction expression with
  | @arithmetic tokens node alone =>
      have clean : ∀ token ∈ tokens, token.kind ≠ .assign := fun token member =>
        Kind.ne_of_member (alone.isPhrase token member) rfl
      rw [Node.target_of_noAssignment alone.noAssignment, List.takeWhile_eq_self_iff.mpr]
      · exact alone
      · simpa using clean
  | @assignment tokens more operator left right _ assigns _ ih =>
      rw [takeWhile_append_assign tokens more assigns, Node.target, if_pos assigns]
      exact ih

/-- Arithmetic of two tokens or more is a call or an operation. -/
theorem Arithmetic.longer {first second : Token} {more : List Token}
    (arithmetic : Arithmetic (first :: second :: more) node) :
    node.isCall = true ∨ node.IsOperation := by
  cases node with
  | leaf token =>
      generalize whole : first :: second :: more = tokens at arithmetic
      cases arithmetic with
      | factor alone =>
          cases alone with
          | literal => cases whole
          | name => cases whole
  | callNamed => exact .inl rfl
  | operation => exact .inr ⟨arithmetic.operands.1⟩
  | variableDeclaration => cases (Expression.arithmetic arithmetic).noDeclaration
  | functionDeclaration => cases (Expression.arithmetic arithmetic).noDeclaration
  | block => exact absurd arithmetic Arithmetic.noBlock

/-- The check of an assignment agrees with its tree. -/
theorem Expression.judgesTarget (expression : Expression tokens node)
    (assigns : node.token.kind = .assign) : JudgesTarget node.target (checkAssignment tokens) := by
  have spelled := expression.target
  obtain ⟨head, second, rest, rfl, -, -, check⟩ := expression.checkAssignment_eq assigns
  obtain ⟨first, _, shape, starts⟩ := spelled.exists_head
  have noAssign : head.kind ≠ .assign := by
    intro isAssign
    rw [List.takeWhile_cons_of_neg (by simpa using isAssign)] at shape
    cases shape
  rw [List.takeWhile_cons_of_pos (by simpa using noAssign)] at spelled shape
  obtain ⟨rfl, -⟩ := List.cons.inj shape
  rw [check]
  by_cases single : second.kind = .assign
  · rw [List.takeWhile_cons_of_neg (by simpa using single)] at spelled
    rw [spelled.eq_leaf, if_pos single]
    by_cases isName : head.kind = .identifier
    · rw [if_pos isName]
      exact .name isName
    · rw [if_neg isName]
      exact .literal (starts.resolve_right isName)
  · rw [List.takeWhile_cons_of_pos (by simpa using single)] at spelled
    rw [if_neg single]
    exact .longer spelled.longer

end Grammar

/-!
### Statements

What a statement makes of the verdict is all that can be seen of it.
-/

namespace Cursor

/-- A statement that assigns is the expression with the verdict of the check, terminated like every
other statement. -/
theorem statement_of_assignment {cursor : Cursor} {node : Node}
    (untyped : ∀ first ∈ cursor.rest.head?, first.kind.isType = false) :
    let read := (cursor.withBound cursor.semicolonIndex).expression
    read.outcome = .ok node → node.token.kind = .assign →
      cursor.statement = terminated
        ⟨(checkAssignment (cursor.rest.take (read.cursor.position - cursor.position))).map
          fun _ => node, read.cursor.withBound cursor.bound⟩ := by
  intro read success assigns
  have judged : read.outcome.bind
      (asStatement (cursor.rest.take (read.cursor.position - cursor.position))) =
        (checkAssignment (cursor.rest.take (read.cursor.position - cursor.position))).map
          fun _ => node := by
    rw [success]
    exact if_pos assigns
  rw [statement_of_untyped untyped, expressionStatement]
  exact congrArg (fun outcome => terminated ⟨outcome, _⟩) judged

/-- The tokens that an expression has passed spell it. -/
theorem expression_spelled {cursor : Cursor} {node : Node}
    (read : cursor.expression.outcome = .ok node) :
    Expression (cursor.rest.take (cursor.expression.cursor.position - cursor.position)) node := by
  obtain ⟨taken, shape, moved, derived⟩ := Phrase.read_sound read
  have span : cursor.rest.take (cursor.expression.cursor.position - cursor.position) = taken :=
    take_passed shape moved
  rw [span]
  exact derived

end Cursor

namespace Session

variable {tokens : List Token}

/-- After any calls, a call of whatever kind finds no name missing behind a type. -/
theorem Reached.named {session : Session} (reached : Reached tokens session) (call : Call) :
    (session.perform call).outcome ≠ .error .definitionWithoutName := by
  have settled := reached.settled.1
  have bounded := settled.bounded
  have phrase : ∀ {extent : Phrase.Extent} {other : GrammarError},
      (Phrase.read extent session.cursor).outcome = .error other →
        other.DescribesPlace tokens 0 (Phrase.read extent session.cursor).cursor.position :=
    bounded.read
  intro failed
  cases call with
  | statement => exact nomatch settled.statement (Reply.outcome_map_eq_error_iff.mp failed)
  | expression => exact nomatch phrase (Reply.outcome_map_eq_error_iff.mp failed)
  | arithmetic => exact nomatch phrase (Reply.outcome_map_eq_error_iff.mp failed)
  | factor => exact nomatch phrase (Reply.outcome_map_eq_error_iff.mp failed)
  | program =>
      obtain ⟨first, -, describes⟩ := settled.program (Reply.outcome_map_eq_error_iff.mp failed)
      cases describes
  | save => cases failed
  | restore => cases failed

/-- Wherever a statement that does not start with a type is read as an expression with `=` at its
root, the check of its tokens agrees with the tree: it passes exactly when the chain starts with a
name, and otherwise its error tells a literal from a call or an operation.  The statement then fails
with that error, and if the check passes it fails for want of its semicolon only.  No call ever
fails because a name is missing behind a type. -/
theorem assignments_judged_by_target {session : Session} (reached : Reached tokens session) :
    let cursor := session.cursor
    let read := (cursor.withBound cursor.semicolonIndex).expression
    let verdict := checkAssignment (cursor.rest.take (read.cursor.position - cursor.position))
    let statement := session.perform .statement
    ((∀ first ∈ cursor.rest.head?, first.kind.isType = false) →
      ∀ node, read.outcome = .ok node → node.isAssignment = true →
        JudgesTarget node.target verdict ∧
        (∀ cause, verdict = .error cause → statement.outcome = .error cause) ∧
        (verdict = .ok () → statement.outcome = .ok (.node node) ∨
          statement.outcome = .error .missingSemicolon)) ∧
    ∀ call, (session.perform call).outcome ≠ .error .definitionWithoutName := by
  intro cursor read verdict statement
  refine ⟨fun untyped node success isAssignment => ?_, reached.named⟩
  have expression : Expression (cursor.rest.take (read.cursor.position - cursor.position)) node :=
    Cursor.expression_spelled success
  have assigns := expression.assignment_iff.mpr isAssignment
  have judged : cursor.statement =
      Cursor.terminated ⟨verdict.map fun _ => node, read.cursor.withBound cursor.bound⟩ :=
    Cursor.statement_of_assignment untyped success assigns
  refine ⟨expression.judgesTarget assigns, fun cause refused => ?_, fun passed => ?_⟩
  · rw [refused] at judged
    exact congrArg (·.outcome.map Product.node) judged
  · rw [passed] at judged
    have ended := judged.trans (Cursor.terminated_ok node _)
    split at ended
    · exact .inl (congrArg (·.outcome.map Product.node) ended)
    · exact .inr (congrArg (·.outcome.map Product.node) ended)

/-- The second of two statements assigns to a call. -/
theorem assignments_judged_by_target_call :
    let tokens := [.identifier "a", .ofText .assign "=", .integer 5, .ofText .semicolon ";",
      .identifier "f", .ofText .leftParen "(", .identifier "b", .ofText .rightParen ")",
      .ofText .assign "=", .integer 2, .ofText .semicolon ";"]
    let session := (ofTokens tokens).after [.statement]
    let target := Node.call (.identifier "f") [.leaf (.identifier "b")]
    let node := Node.operation (.ofText .assign "=") target (.leaf (.integer 2))
    let read := (session.cursor.withBound session.cursor.semicolonIndex).expression
    Reached tokens session ∧ read.outcome = .ok node ∧ node.isAssignment = true ∧
      node.target = target ∧
      (session.perform .statement).outcome = .error .definitionWithoutType ∧
      (session.perform .program).outcome ≠ .error .definitionWithoutName := by
  intro tokens session target node read
  have reached : Reached tokens session := Reached.start.after [.statement]
  have success : read.outcome = .ok node := rfl
  have untyped : ∀ first ∈ session.cursor.rest.head?, first.kind.isType = false := by
    rintro first ⟨⟩
    rfl
  obtain ⟨judges, named⟩ := assignments_judged_by_target reached
  obtain ⟨verdict, refused, -⟩ := judges untyped node success rfl
  exact ⟨reached, success, rfl, rfl, refused _ (verdict.longer_iff.mpr (.inl rfl)), named .program⟩

end Session

end CLike
