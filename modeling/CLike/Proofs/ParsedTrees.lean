/-
Module: CLike.Proofs.ParsedTrees
Layer: Proofs
Purpose: The trees that are parsed from a text are those that can be written down.
Main exports: Grammar.Statement.isCanonical, exists_derivation_of_parseProgram,
  isCanonical_of_parseProgram
-/
import CLike.Proofs.SourceText
import CLike.Proofs.Spans

namespace CLike

/-!
The grammar looks at the classes of tokens only, and the tokens of a text carry values that fit
their classes.  So a tree that is derived from such tokens can be written down itself.
-/

namespace Grammar

open Node

mutual

theorem Factor.isFactor {tokens : List Token} {node : Node} :
    Factor tokens node → (∀ token ∈ tokens, token.Lexable) → node.IsFactor
  | .literal isLiteral => fun lexable => .leaf (lexable _ List.mem_cons_self) (.inl isLiteral)
  | .name isName => fun lexable => .leaf (lexable _ List.mem_cons_self) (.inr isName)
  | .call isName opens inside closes => fun lexable => by
      obtain ⟨nameLexable, lexable⟩ := List.forall_mem_cons.mp lexable
      obtain ⟨-, lexable⟩ := List.forall_mem_cons.mp lexable
      exact .call isName nameLexable
        (Separated.isArithmetic inside (List.forall_mem_append.mp lexable).1)

theorem Arithmetic.isArithmetic {tokens : List Token} {node : Node} :
    Arithmetic tokens node → (∀ token ∈ tokens, token.Lexable) → node.IsArithmetic
  | .factor alone => fun lexable => .factor (Factor.isFactor alone lexable)
  | .operation first isOperator second => fun lexable => by
      obtain ⟨lexableFirst, lexable⟩ := List.forall_mem_append.mp lexable
      obtain ⟨lexableOperator, lexableSecond⟩ := List.forall_mem_cons.mp lexable
      exact .operation (Arithmetic.isArithmetic first lexableFirst) isOperator lexableOperator
        (Factor.isFactor second lexableSecond)

theorem Separated.isArithmetic {fresh : Bool} {tokens : List Token} {nodes : List Node} :
    Separated Arithmetic fresh tokens nodes → (∀ token ∈ tokens, token.Lexable) →
      ∀ node ∈ nodes, node.IsArithmetic
  | .nil => fun _ => List.forall_mem_nil _
  | .comma before _ => fun lexable =>
      Separated.isArithmetic before (List.forall_mem_append.mp lexable).1
  | .item before next => fun lexable => by
      obtain ⟨lexableBefore, lexableNext⟩ := List.forall_mem_append.mp lexable
      exact List.forall_mem_append.mpr ⟨Separated.isArithmetic before lexableBefore,
        List.forall_mem_singleton.mpr (Arithmetic.isArithmetic next lexableNext)⟩

end

theorem Assignment.isAssignment {tokens : List Token} {node : Node}
    (assignment : Assignment tokens node) (lexable : ∀ token ∈ tokens, token.Lexable) :
    node.IsAssignment := by
  induction assignment with
  | single isName assigns second =>
      obtain ⟨lexableName, lexable⟩ := List.forall_mem_cons.mp lexable
      obtain ⟨lexableOperator, lexableValue⟩ := List.forall_mem_cons.mp lexable
      exact .single isName lexableName assigns lexableOperator (second.isArithmetic lexableValue)
  | more first assigns second ih =>
      obtain ⟨lexableFirst, lexable⟩ := List.forall_mem_append.mp lexable
      obtain ⟨lexableOperator, lexableValue⟩ := List.forall_mem_cons.mp lexable
      exact .more (ih lexableFirst) assigns lexableOperator (second.isArithmetic lexableValue)

/-- The types of parameters are among the tokens of their list. -/
theorem Separated.parameterTypes {fresh : Bool} {tokens types : List Token}
    (parameters : Separated Parameter fresh tokens types) :
    ∀ type ∈ types, type ∈ tokens ∧ (type.kind = .intType ∨ type.kind = .charType) := by
  induction parameters with
  | nil => exact List.forall_mem_nil _
  | comma before isComma ih =>
      exact fun type member => ⟨List.mem_append_left _ (ih type member).1, (ih type member).2⟩
  | item before next ih =>
      refine List.forall_mem_append.mpr ⟨fun type member => ?_, ?_⟩
      · exact ⟨List.mem_append_left _ (ih type member).1, (ih type member).2⟩
      · obtain ⟨rest, rfl⟩ := next.exists_head
        exact List.forall_mem_singleton.mpr
          ⟨List.mem_append_right _ List.mem_cons_self, next.typed⟩

theorem Statement.isCanonical {tokens : List Token} {node : Node}
    (statement : Statement tokens node) (lexable : ∀ token ∈ tokens, token.Lexable) :
    node.IsCanonical := by
  cases statement with
  | variableDeclaration isType isName =>
      obtain ⟨lexableType, lexable⟩ := List.forall_mem_cons.mp lexable
      exact .variableDeclaration isType lexableType isName (List.forall_mem_singleton.mp lexable)
  | functionDeclaration isType isName opens inside closes =>
      obtain ⟨lexableType, lexable⟩ := List.forall_mem_cons.mp lexable
      obtain ⟨lexableName, lexable⟩ := List.forall_mem_cons.mp lexable
      obtain ⟨-, lexable⟩ := List.forall_mem_cons.mp lexable
      refine .functionDeclaration isType lexableType isName lexableName ?_ ?_
      · exact fun type member => (inside.parameterTypes type member).2
      · exact fun type member =>
          (List.forall_mem_append.mp lexable).1 type (inside.parameterTypes type member).1
  | assignment assignment => exact .assignment (assignment.isAssignment lexable)
  | call isName opens inside closes =>
      obtain ⟨lexableName, lexable⟩ := List.forall_mem_cons.mp lexable
      obtain ⟨-, lexable⟩ := List.forall_mem_cons.mp lexable
      exact .call isName lexableName
        (inside.isArithmetic (List.forall_mem_append.mp lexable).1)

end Grammar

/-- Each statement of a program is derived from some of its tokens. -/
theorem exists_derivation_of_parseProgram {tokens : List Token} {nodes : List Node}
    (parsed : parseProgram tokens = .ok nodes) :
    ∀ node ∈ nodes, ∃ body, Grammar.Statement body node ∧ body ⊆ tokens := by
  obtain ⟨-, each⟩ := (Cursor.program_eq_ok_iff tokens nodes).mp parsed
  have within : ∀ segment ∈ segments tokens, segment ⊆ tokens := by
    intro segment member token inSegment
    rw [← flatten_segments_append_remainder tokens]
    exact List.mem_append_left _ (List.mem_flatten_of_mem member inSegment)
  clear parsed
  generalize segments tokens = pieces at each within
  induction each with
  | nil => exact List.forall_mem_nil _
  | @cons segment node later nodes read eachLater ih =>
      obtain ⟨withinSegment, withinLater⟩ := List.forall_mem_cons.mp within
      refine List.forall_mem_cons.mpr ⟨?_, ih withinLater⟩
      obtain ⟨body, semicolon, rest, shape, -, statement⟩ := Cursor.statement_sound read
      have whole : segment = body ++ semicolon :: rest := shape
      exact ⟨body, statement, fun token member => withinSegment (by simp [whole, member])⟩

/-- The statements of a text can be written down. -/
theorem isCanonical_of_parseProgram {source : String} {tokens : List Token} {nodes : List Node}
    (read : lex source = .ok tokens) (parsed : parseProgram tokens = .ok nodes) :
    ∀ node ∈ nodes, node.IsCanonical := by
  intro node member
  obtain ⟨body, statement, within⟩ := exists_derivation_of_parseProgram parsed node member
  exact statement.isCanonical fun token inBody => lexable_of_lex read token (within inBody)

end CLike
