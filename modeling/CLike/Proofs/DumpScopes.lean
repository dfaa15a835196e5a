/-
Module: CLike.Proofs.DumpScopes
Layer: Proofs
Purpose: The symbolic expression of a tree with parts is one scope, which its first parenthesis
  opens and its last one closes, if no token of the tree is written with a parenthesis.
Main exports: Paired, IsScope, IsScope.scopeEnd_eq, IsScope.scopeEnd_dropLast, Node.leaf_or_scope,
  scopeEnd_dump
-/
import CLike.Node.Dump
import CLike.Proofs.KeptTokens
import CLike.Proofs.ScopeEnds

namespace CLike

/-!
### Texts with parentheses

A symbolic expression is put together from pieces, and so is what is known of its parentheses.
-/

/-- No parenthesis is in the text. -/
def Unparenthesized (text : String) : Prop := '(' ∉ text.toList ∧ ')' ∉ text.toList

instance (text : String) : Decidable (Unparenthesized text) :=
  inferInstanceAs (Decidable (_ ∧ _))

/-- Every parenthesis of the text has a partner in it. -/
def Paired (text : String) : Prop := Balanced (· == '(') (· == ')') text.toList

namespace Paired

theorem of_unparenthesized {text : String} (bare : Unparenthesized text) : Paired text := by
  obtain ⟨noOpening, noClosing⟩ := bare
  rw [Paired]
  generalize text.toList = chars at noOpening noClosing
  induction chars with
  | nil => exact .nil
  | cons first rest ih =>
      obtain ⟨otherOpening, noOpening⟩ := not_or.mp (mt List.mem_cons.mpr noOpening)
      obtain ⟨otherClosing, noClosing⟩ := not_or.mp (mt List.mem_cons.mpr noClosing)
      refine .plain ?_ ?_ (ih noOpening noClosing)
      · exact mt eq_of_beq (Ne.symm otherOpening)
      · exact mt eq_of_beq (Ne.symm otherClosing)

theorem append {one two : String} (first : Paired one) (second : Paired two) :
    Paired (one ++ two) := by
  rw [Paired, String.toList_append]
  exact Balanced.append first second

theorem space : Paired " " := .of_unparenthesized (by decide)

/-- Texts with spaces between neighbours. -/
theorem intercalate {texts : List String} (each : ∀ text ∈ texts, Paired text) :
    Paired (" ".intercalate texts) := by
  induction texts with
  | nil => exact .nil
  | cons text later ih =>
      obtain ⟨here, eachLater⟩ := List.forall_mem_cons.mp each
      cases later with
      | nil => rwa [String.intercalate_singleton]
      | cons next later =>
          rw [String.intercalate_cons_cons]
          exact (here.append space).append (ih eachLater)

end Paired

/-- The text is one scope: two parentheses, and between them a text in which all are paired. -/
def IsScope (text : String) : Prop := ∃ inside, text = "(" ++ inside ++ ")" ∧ Paired inside

namespace IsScope

variable {text : String}

theorem toList_eq (scope : IsScope text) :
    ∃ inside, text.toList = '(' :: (inside ++ [')']) ∧ Balanced (· == '(') (· == ')') inside := by
  obtain ⟨inside, rfl, paired⟩ := scope
  refine ⟨inside.toList, ?_, paired⟩
  rw [String.toList_append, String.toList_append]
  rfl

/-- A scope among other texts is passed as a whole. -/
theorem paired (scope : IsScope text) : Paired text := by
  obtain ⟨inside, shape, balanced⟩ := scope.toList_eq
  rw [Paired, shape]
  exact .scope rfl balanced rfl .nil

/-- The first parenthesis of a scope is closed by the last one. -/
theorem scopeEnd_eq (scope : IsScope text) :
    scopeEnd '(' ')' text.toList = .ok (text.length - 1) := by
  obtain ⟨inside, shape, balanced⟩ := scope.toList_eq
  have fits : ScopeCut.Fits '(' ')' text.toList ⟨[], '(', inside, ')', []⟩ :=
    ⟨shape, List.forall_mem_nil _, rfl, balanced, rfl⟩
  have long : text.length = inside.length + 1 + 1 := by
    rw [← String.length_toList, shape]
    simp
  rw [fits.scopeEnd_eq rfl, long, Nat.add_sub_cancel, List.length_nil, Nat.zero_add, Nat.add_comm]

/-- Without the last one it is never closed. -/
theorem scopeEnd_dropLast (scope : IsScope text) :
    scopeEnd '(' ')' text.toList.dropLast = .error .unclosed := by
  obtain ⟨inside, shape, balanced⟩ := scope.toList_eq
  have passed := scopeEndFrom_balanced rfl balanced 0 []
  rw [List.append_nil] at passed
  rw [shape, ← List.cons_append, List.dropLast_concat, scopeEnd, scopeEndFrom_opening rfl, passed]
  rfl

end IsScope

/-!
### Symbolic expressions
-/

namespace Node

theorem paired_of_leaf_or_scope {node : Node}
    (shape : (∃ token, node = .leaf token ∧ Paired node.dump) ∨ IsScope node.dump) :
    Paired node.dump := by
  rcases shape with ⟨_, _, paired⟩ | scope
  · exact paired
  · exact scope.paired

mutual

/-- A tree is a leaf, whose parentheses are paired because there are none, or it is written as one
scope. -/
theorem leaf_or_scope : ∀ node : Node, (∀ token ∈ node.inOrder, Unparenthesized token.text) →
    (∃ token, node = .leaf token ∧ Paired node.dump) ∨ IsScope node.dump
  | .leaf token, bare => by
      have text : Paired token.text := .of_unparenthesized (bare token (List.mem_singleton_self _))
      have quote : Paired "\"" := .of_unparenthesized (by decide)
      have quoteToo : Paired "'" := .of_unparenthesized (by decide)
      refine .inl ⟨token, rfl, ?_⟩
      rw [dump, Token.spelling]
      split
      · exact (quote.append text).append quote
      · exact (quoteToo.append text).append quoteToo
      · exact text
  | .callNamed name arguments, bare => by
      rw [inOrder, List.forall_mem_cons] at bare
      have each := paired_dumpEach arguments bare.2
      have lead : Paired "call " := .of_unparenthesized (by decide)
      refine .inr ⟨"call " ++ name.text ++ dumpEach arguments, ?_, ?_⟩
      · simp only [dump, String.append_assoc]
        rfl
      · exact (lead.append (.of_unparenthesized bare.1)).append each
  | .operation operator left right, bare => by
      rw [inOrder, List.forall_mem_append, List.forall_mem_cons] at bare
      obtain ⟨bareLeft, bareOperator, bareRight⟩ := bare
      have symbol : Paired operator.text := .of_unparenthesized bareOperator
      have first := paired_of_leaf_or_scope (leaf_or_scope left bareLeft)
      have second := paired_of_leaf_or_scope (leaf_or_scope right bareRight)
      refine .inr ⟨operator.text ++ " " ++ left.dump ++ " " ++ right.dump, ?_, ?_⟩
      · simp only [dump, String.append_assoc]
      · exact (((symbol.append .space).append first).append .space).append second
  | .variableDeclaration name type, bare => by
      rw [inOrder, List.forall_mem_cons, List.forall_mem_singleton] at bare
      obtain ⟨bareType, bareName⟩ := bare
      have lead : Paired "var " := .of_unparenthesized (by decide)
      refine .inr ⟨"var " ++ type.text ++ " " ++ name.text, ?_, ?_⟩
      · simp only [dump, String.append_assoc]
        rfl
      · exact ((lead.append (.of_unparenthesized bareType)).append .space).append
          (.of_unparenthesized bareName)
  | .functionDeclaration name type parameters, bare => by
      rw [inOrder, List.forall_mem_cons, List.forall_mem_cons] at bare
      obtain ⟨bareType, bareName, bareParameters⟩ := bare
      have lead : Paired "fn " := .of_unparenthesized (by decide)
      have types : IsScope ("(" ++ " ".intercalate (parameters.map Token.text) ++ ")") := by
        refine ⟨" ".intercalate (parameters.map Token.text), rfl, .intercalate ?_⟩
        rw [List.forall_mem_map]
        exact fun parameter member => .of_unparenthesized (bareParameters parameter member)
      refine .inr ⟨"fn " ++ type.text ++ " " ++ name.text ++ " " ++
        ("(" ++ " ".intercalate (parameters.map Token.text) ++ ")"), ?_, ?_⟩
      · simp only [dump, String.append_assoc]
        rfl
      · exact ((((lead.append (.of_unparenthesized bareType)).append .space).append
          (.of_unparenthesized bareName)).append .space).append types.paired
  | .block token statements, bare => by
      rw [inOrder, List.forall_mem_cons] at bare
      have lead : Paired "block" := .of_unparenthesized (by decide)
      refine .inr ⟨"block" ++ dumpEach statements, ?_, ?_⟩
      · simp only [dump, String.append_assoc]
        rfl
      · exact lead.append (paired_dumpEach statements bare.2)

theorem paired_dumpEach :
    ∀ nodes : List Node, (∀ token ∈ inOrderEach nodes, Unparenthesized token.text) →
      Paired (dumpEach nodes)
  | [], _ => .nil
  | node :: rest, bare => by
      rw [inOrderEach, List.forall_mem_append] at bare
      have later := paired_dumpEach rest bare.2
      have here := paired_of_leaf_or_scope (leaf_or_scope node bare.1)
      exact (Paired.space.append here).append later

end

end Node

/-- Written as a symbolic expression, a tree with parts is one scope, however deep it is, if none of
its tokens has a parenthesis in its text: the search for the end of the first scope ends at the last
character, and without this character it finds no end. -/
theorem scopeEnd_dump {node : Node} (parts : ∀ token, node ≠ .leaf token)
    (bare : ∀ token ∈ node.inOrder, '(' ∉ token.text.toList ∧ ')' ∉ token.text.toList) :
    scopeEnd '(' ')' node.dump.toList = .ok (node.dump.length - 1) ∧
      scopeEnd '(' ')' node.dump.toList.dropLast = .error .unclosed := by
  rcases node.leaf_or_scope bare with ⟨token, isLeaf, -⟩ | scope
  · exact absurd isLeaf (parts token)
  · exact ⟨scope.scopeEnd_eq, scope.scopeEnd_dropLast⟩

/-- A block of a function declaration, of an empty call and of an assignment. -/
theorem scopeEnd_dump_block :
    let block : Node := .block (.ofText .leftBrace "\x7b")
      [.functionDeclaration (.identifier "f") (.ofText .intType "int") [.ofText .charType "char"],
        .call (.identifier "g") [],
        .operation (.ofText .assign "=") (.leaf (.identifier "a")) (.leaf (.character 'x'))]
    (∀ token, block ≠ .leaf token) ∧
      (∀ token ∈ block.inOrder, '(' ∉ token.text.toList ∧ ')' ∉ token.text.toList) ∧
      block.dump = "(block (fn int f (char)) (call g) (= a 'x'))" ∧
      scopeEnd '(' ')' block.dump.toList = .ok 43 ∧
      scopeEnd '(' ')' block.dump.toList.dropLast = .error .unclosed := by
  intro block
  have parts : ∀ token, block ≠ .leaf token := fun _ => Node.noConfusion
  have bare : ∀ token ∈ block.inOrder, '(' ∉ token.text.toList ∧ ')' ∉ token.text.toList := by
    decide
  have written : block.dump = "(block (fn int f (char)) (call g) (= a 'x'))" := rfl
  have long : block.dump.length - 1 = 43 := by
    rw [written]
    decide
  have ends := scopeEnd_dump parts bare
  rw [long] at ends
  exact ⟨parts, bare, written, ends⟩

end CLike
