/-
Module: CLike.Proofs.LeftLeaning
Layer: Proofs
Purpose: The form of every tree that is read: chains lean to the left, on one level of operators and
  one of assignments above it, and declarations stand alone.
Main exports: Node.IsPartOf, Node.LeansLeft, Node.StandsAlone, Grammar.Expression.of_part,
  Grammar.Expression.leansLeft, Grammar.Statement.standsAlone, Session.perform_leans_left
-/
import CLike.Proofs.CommaLists

namespace CLike

open Grammar

/-!
### Parts of trees
-/

/-- A tree is a part of itself and of every tree in which a part of it is an argument, an operand or
a statement. -/
inductive Node.IsPartOf (part : Node) : Node → Prop where
  | whole : IsPartOf part part
  | argument {name : Token} {arguments : List Node} {argument : Node}
      (member : argument ∈ arguments) (inside : IsPartOf part argument) :
      IsPartOf part (.callNamed name arguments)
  | left {operator : Token} {left right : Node} (inside : IsPartOf part left) :
      IsPartOf part (.operation operator left right)
  | right {operator : Token} {left right : Node} (inside : IsPartOf part right) :
      IsPartOf part (.operation operator left right)
  | statement {token : Token} {statements : List Node} {node : Node} (member : node ∈ statements)
      (inside : IsPartOf part node) : IsPartOf part (.block token statements)

namespace Node

/-- Whether a tree is a call. -/
def isCall : Node → Bool
  | callNamed .. => true
  | _ => false

/-- Whether a tree is a leaf or a call. -/
def isLeafOrCall : Node → Bool
  | leaf _ => true
  | callNamed .. => true
  | _ => false

/-- Whether a tree is an operation whose operator is `=`. -/
def isAssignment : Node → Bool
  | operation operator _ _ => operator.kind == .assign
  | _ => false

/-- Whether a tree declares a variable or a function. -/
def isDeclaration : Node → Bool
  | variableDeclaration .. => true
  | functionDeclaration .. => true
  | _ => false

/-- What stands on the left of the leftmost assignment of a chain, and a tree that is no assignment
itself. -/
def target : Node → Node
  | operation operator left right =>
    if operator.kind = .assign then left.target else operation operator left right
  | node => node

/-- The form of a tree: all operators but `=` are on one level and lean to the left, so that an
operand on the right is a factor.  Assignments are above them and lean to the left as well, and no
argument has one inside.  A declaration is a part of nothing but itself. -/
structure LeansLeft (root : Node) : Prop where
  noBlock {token : Token} {statements : List Node} : ¬ IsPartOf (.block token statements) root
  leaf {token : Token} : IsPartOf (.leaf token) root →
    token.kind = .integer ∨ token.kind = .character ∨ token.kind = .string ∨
      token.kind = .identifier
  call_iff {part : Node} : IsPartOf part root → (part.token.kind = .call ↔ part.isCall = true)
  operator {operator : Token} {left right : Node} : IsPartOf (.operation operator left right) root →
    operator.kind = .assign ∨ operator.kind.isArithmetic = true
  arithmetic {operator : Token} {left right : Node} :
    IsPartOf (.operation operator left right) root → operator.kind.isArithmetic = true →
      left.isAssignment = false ∧ right.isLeafOrCall = true
  assignment {operator : Token} {left right : Node} :
    IsPartOf (.operation operator left right) root → operator.kind = .assign →
      right.isAssignment = false
  argument {name : Token} {arguments : List Node} {argument part : Node} :
    IsPartOf (.callNamed name arguments) root → argument ∈ arguments →
      IsPartOf part argument → part.isAssignment = false
  declaration {part : Node} : IsPartOf part root → part.isDeclaration = true → part = root

/-- What a statement can be: a declaration, a call, or a chain of assignments to a name. -/
inductive StandsAlone : Node → Prop where
  | variableDeclaration {name type : Token} (isName : name.kind = .identifier)
      (isType : type.kind = .intType ∨ type.kind = .charType ∨ type.kind = .voidType) :
      StandsAlone (.variableDeclaration name type)
  | functionDeclaration {name type : Token} {parameters : List Token}
      (isName : name.kind = .identifier)
      (isType : type.kind = .intType ∨ type.kind = .charType ∨ type.kind = .voidType)
      (typed : ∀ parameter ∈ parameters, parameter.kind = .intType ∨ parameter.kind = .charType) :
      StandsAlone (.functionDeclaration name type parameters)
  | call {callee : Token} {arguments : List Node} : StandsAlone (.call callee arguments)
  | assignment {node : Node} {name : Token} (assigns : node.isAssignment = true)
      (target : node.target = .leaf name) (isName : name.kind = .identifier) : StandsAlone node

end Node

/-!
### Parts of phrases

Each part of a phrase is a phrase itself, so what holds of the root of any phrase holds of all of its
parts.  The induction goes from the whole tree down to the part, and at each step the derivation of a
tree is taken apart.
-/

namespace Grammar

/-- Each of some separated items is spelled by some of the tokens. -/
theorem Separated.each {α : Type} {Item : List Token → α → Prop} {fresh : Bool}
    {tokens : List Token} {items : List α} (separated : Separated Item fresh tokens items) :
    ∀ item ∈ items, ∃ more, Item more item := by
  induction separated with
  | nil => exact List.forall_mem_nil _
  | comma _ _ ih => exact ih
  | item _ next ih =>
      exact List.forall_mem_append.mpr ⟨ih, List.forall_mem_singleton.mpr ⟨_, next⟩⟩

variable {tokens : List Token} {part node : Node}

/-- The grammar has no blocks. -/
theorem Arithmetic.noBlock {token : Token} {statements : List Node} :
    ¬ Arithmetic tokens (.block token statements) := by
  intro arithmetic
  cases arithmetic with
  | factor alone => cases alone

theorem Expression.noBlock {token : Token} {statements : List Node} :
    ¬ Expression tokens (.block token statements) := by
  intro expression
  cases expression with
  | arithmetic alone => exact alone.noBlock

theorem Arithmetic.arguments {name : Token} {arguments : List Node}
    (arithmetic : Arithmetic tokens (.callNamed name arguments)) :
    ∀ argument ∈ arguments, ∃ more, Arithmetic more argument := by
  cases arithmetic with
  | factor alone =>
      cases alone with
      | call _ _ inside _ => exact inside.each

theorem Arithmetic.operands {operator : Token} {left right : Node}
    (arithmetic : Arithmetic tokens (.operation operator left right)) :
    operator.kind.isArithmetic = true ∧ (∃ more, Arithmetic more left) ∧
      ∃ more, Factor more right := by
  cases arithmetic with
  | factor alone => cases alone
  | operation first isOperator second => exact ⟨isOperator, ⟨_, first⟩, ⟨_, second⟩⟩

theorem Arithmetic.of_part (inside : part.IsPartOf node) (arithmetic : Arithmetic tokens node) :
    ∃ more, Arithmetic more part := by
  induction inside generalizing tokens with
  | whole => exact ⟨tokens, arithmetic⟩
  | argument member _ ih =>
      obtain ⟨more, argument⟩ := arithmetic.arguments _ member
      exact ih argument
  | left _ ih =>
      obtain ⟨-, ⟨more, left⟩, -⟩ := arithmetic.operands
      exact ih left
  | right _ ih =>
      obtain ⟨-, -, ⟨more, right⟩⟩ := arithmetic.operands
      exact ih (.factor right)
  | statement => exact absurd arithmetic Arithmetic.noBlock

theorem Expression.arguments {name : Token} {arguments : List Node}
    (expression : Expression tokens (.callNamed name arguments)) :
    ∀ argument ∈ arguments, ∃ more, Arithmetic more argument := by
  cases expression with
  | arithmetic alone => exact alone.arguments

theorem Expression.operands {operator : Token} {left right : Node}
    (expression : Expression tokens (.operation operator left right)) :
    (operator.kind = .assign ∧ (∃ more, Expression more left) ∧ ∃ more, Arithmetic more right) ∨
      (operator.kind.isArithmetic = true ∧ (∃ more, Arithmetic more left) ∧
        ∃ more, Factor more right) := by
  cases expression with
  | arithmetic alone => exact .inr alone.operands
  | assignment first assigns second => exact .inl ⟨assigns, ⟨_, first⟩, ⟨_, second⟩⟩

theorem Expression.of_part (inside : part.IsPartOf node) (expression : Expression tokens node) :
    ∃ more, Expression more part := by
  induction inside generalizing tokens with
  | whole => exact ⟨tokens, expression⟩
  | argument member _ ih =>
      obtain ⟨more, argument⟩ := expression.arguments _ member
      exact ih (.arithmetic argument)
  | left _ ih =>
      rcases expression.operands with ⟨-, ⟨more, left⟩, -⟩ | ⟨-, ⟨more, left⟩, -⟩
      · exact ih left
      · exact ih (.arithmetic left)
  | right _ ih =>
      rcases expression.operands with ⟨-, -, ⟨more, right⟩⟩ | ⟨-, -, ⟨more, right⟩⟩
      · exact ih (.arithmetic right)
      · exact ih (.arithmetic (.factor right))
  | statement => exact absurd expression Expression.noBlock

/-!
### Roots

Of each phrase the root has the form that it should have.
-/

theorem Factor.isLeafOrCall (factor : Factor tokens node) : node.isLeafOrCall = true := by
  cases factor with
  | literal => rfl
  | name => rfl
  | call => rfl

/-- There is no assignment at the root of arithmetic. -/
theorem Arithmetic.noAssignment (arithmetic : Arithmetic tokens node) :
    node.isAssignment = false := by
  cases arithmetic with
  | factor alone =>
      cases alone with
      | literal => rfl
      | name => rfl
      | call => rfl
  | operation _ isOperator _ => exact beq_false_of_ne (Kind.ne_assign_of_isArithmetic isOperator)

theorem Expression.noDeclaration (expression : Expression tokens node) :
    node.isDeclaration = false := by
  cases expression with
  | arithmetic alone =>
      cases alone with
      | factor alone =>
          cases alone with
          | literal => rfl
          | name => rfl
          | call => rfl
      | operation => rfl
  | assignment => rfl

theorem Expression.leaf {token : Token} (expression : Expression tokens (.leaf token)) :
    token.kind = .integer ∨ token.kind = .character ∨ token.kind = .string ∨
      token.kind = .identifier := by
  cases expression with
  | arithmetic alone =>
      cases alone with
      | factor alone =>
          cases alone with
          | literal isLiteral => exact isLiteral.elim .inl (.inr ∘ .imp_right .inl)
          | name isName => exact .inr (.inr (.inr isName))

/-- The name of a call has lost the class that it was read with. -/
theorem Expression.kind_of_call {name : Token} {arguments : List Node}
    (expression : Expression tokens (.callNamed name arguments)) : name.kind = .call := by
  cases expression with
  | arithmetic alone =>
      cases alone with
      | factor alone =>
          cases alone with
          | call => rfl

/-- The class of a call is that of the names of calls and of no other root. -/
theorem Expression.call_iff (expression : Expression tokens node) :
    node.token.kind = .call ↔ node.isCall = true := by
  cases node with
  | leaf token =>
      rcases expression.leaf with kind | kind | kind | kind
      · simp [Node.token, Node.isCall, kind]
      · simp [Node.token, Node.isCall, kind]
      · simp [Node.token, Node.isCall, kind]
      · simp [Node.token, Node.isCall, kind]
  | callNamed => simp [Node.token, Node.isCall, expression.kind_of_call]
  | operation operator left right =>
      have noCall : operator.kind ≠ .call := by
        rcases expression.operands with ⟨assigns, -⟩ | ⟨isOperator, -⟩
        · simp [assigns]
        · exact Kind.ne_of_member isOperator rfl
      simp [Node.token, Node.isCall, noCall]
  | variableDeclaration => cases expression.noDeclaration
  | functionDeclaration => cases expression.noDeclaration
  | block => exact absurd expression Expression.noBlock

/-- The class of an assignment is that of its operator and of no other root. -/
theorem Expression.assignment_iff (expression : Expression tokens node) :
    node.token.kind = .assign ↔ node.isAssignment = true := by
  cases expression with
  | arithmetic alone => simp [alone.noAssignment, alone.token_ne_assign]
  | assignment _ assigns _ => simp [Node.token, Node.isAssignment, assigns]

/-!
### Whole trees
-/

/-- The tree of every phrase leans to the left. -/
theorem Expression.leansLeft (expression : Expression tokens node) : node.LeansLeft where
  noBlock inside := by
    obtain ⟨_, part⟩ := expression.of_part inside
    exact part.noBlock
  leaf inside := by
    obtain ⟨_, part⟩ := expression.of_part inside
    exact part.leaf
  call_iff inside := by
    obtain ⟨_, part⟩ := expression.of_part inside
    exact part.call_iff
  operator inside := by
    obtain ⟨_, part⟩ := expression.of_part inside
    rcases part.operands with ⟨assigns, -⟩ | ⟨isOperator, -⟩
    · exact .inl assigns
    · exact .inr isOperator
  arithmetic inside isOperator := by
    obtain ⟨_, part⟩ := expression.of_part inside
    rcases part.operands with ⟨assigns, -⟩ | ⟨-, ⟨_, left⟩, ⟨_, right⟩⟩
    · exact absurd assigns (Kind.ne_assign_of_isArithmetic isOperator)
    · exact ⟨left.noAssignment, right.isLeafOrCall⟩
  assignment inside assigns := by
    obtain ⟨_, part⟩ := expression.of_part inside
    rcases part.operands with ⟨-, -, ⟨_, right⟩⟩ | ⟨isOperator, -⟩
    · exact right.noAssignment
    · exact absurd assigns (Kind.ne_assign_of_isArithmetic isOperator)
  argument inside member within := by
    obtain ⟨_, part⟩ := expression.of_part inside
    obtain ⟨_, argument⟩ := part.arguments _ member
    obtain ⟨_, innermost⟩ := argument.of_part within
    exact innermost.noAssignment
  declaration inside declares := by
    obtain ⟨_, part⟩ := expression.of_part inside
    rw [part.noDeclaration] at declares
    cases declares

end Grammar

theorem Node.IsPartOf.eq_of_declaration {part root : Node} (inside : part.IsPartOf root)
    (declares : root.isDeclaration = true) : part = root := by
  cases inside with
  | whole => rfl
  | argument => cases declares
  | left => cases declares
  | right => cases declares
  | statement => cases declares

/-- A declaration has no parts but itself. -/
theorem Node.LeansLeft.of_declaration {root : Node} (declares : root.isDeclaration = true)
    (isName : root.token.kind = .identifier) : root.LeansLeft where
  noBlock inside := by
    obtain rfl := inside.eq_of_declaration declares
    cases declares
  leaf inside := by
    obtain rfl := inside.eq_of_declaration declares
    cases declares
  call_iff {part} inside := by
    obtain rfl := inside.eq_of_declaration declares
    have noCall : part.isCall = false := by
      cases part with
      | callNamed => cases declares
      | _ => rfl
    simp [isName, noCall]
  operator inside := by
    obtain rfl := inside.eq_of_declaration declares
    cases declares
  arithmetic inside := by
    obtain rfl := inside.eq_of_declaration declares
    cases declares
  assignment inside := by
    obtain rfl := inside.eq_of_declaration declares
    cases declares
  argument inside := by
    obtain rfl := inside.eq_of_declaration declares
    cases declares
  declaration inside _ := inside.eq_of_declaration declares

namespace Grammar

/-- A chain of assignments starts with the name that it assigns to. -/
theorem Assignment.target {tokens : List Token} {node : Node} (assignment : Assignment tokens node) :
    ∃ name, node.target = .leaf name ∧ name.kind = .identifier := by
  induction assignment with
  | @single name operator _ value isName assigns _ =>
      refine ⟨name, ?_, isName⟩
      simp [Node.target, assigns]
  | @more _ _ operator left right _ assigns _ ih =>
      obtain ⟨name, target, isName⟩ := ih
      refine ⟨name, ?_, isName⟩
      rw [Node.target, if_pos assigns]
      exact target

theorem Assignment.isAssignment_eq_true {tokens : List Token} {node : Node}
    (assignment : Assignment tokens node) : node.isAssignment = true := by
  cases assignment with
  | single _ assigns _ => exact beq_iff_eq.mpr assigns
  | more _ assigns _ => exact beq_iff_eq.mpr assigns

variable {tokens : List Token} {node : Node}

theorem Statement.leansLeft (statement : Statement tokens node) : node.LeansLeft := by
  cases statement with
  | variableDeclaration _ isName => exact .of_declaration rfl isName
  | functionDeclaration _ isName => exact .of_declaration rfl isName
  | assignment assignment => exact assignment.expression.leansLeft
  | call isName opens inside closes =>
      exact (Expression.arithmetic (.factor (.call isName opens inside closes))).leansLeft

theorem Statement.standsAlone (statement : Statement tokens node) : node.StandsAlone := by
  cases statement with
  | variableDeclaration isType isName => exact .variableDeclaration isName (Kind.isType_iff.mp isType)
  | functionDeclaration isType isName _ inside _ =>
      refine .functionDeclaration isName (Kind.isType_iff.mp isType) fun type member => ?_
      obtain ⟨_, parameter⟩ := inside.each type member
      exact parameter.typed
  | assignment assignment =>
      obtain ⟨name, target, isName⟩ := assignment.target
      exact .assignment assignment.isAssignment_eq_true target isName
  | call => exact .call

end Grammar

/-!
### Readings
-/

/-- Each statement of a program is derived from some of the tokens. -/
theorem Cursor.program_each {cursor : Cursor} {nodes : List Node}
    (read : cursor.program.outcome = .ok nodes) : ∀ node ∈ nodes, ∃ body, Statement body node := by
  fun_induction program cursor generalizing nodes with
  | case1 cursor ended =>
      obtain rfl := Except.ok.inj read
      exact List.forall_mem_nil _
  | case2 => cases read
  | case3 cursor unended reply node readHere =>
      rename_i ih
      obtain ⟨body, _, -, -, statement⟩ := statement_passes readHere
      obtain ⟨later, readLater, rfl⟩ := Reply.outcome_map_eq_ok_iff.mp read
      exact List.forall_mem_cons.mpr ⟨⟨body, statement⟩, ih readLater⟩

namespace Session

/-- The form of what a call gives.  A declaration is a statement and nothing else. -/
def Product.LeansLeft (call : Call) : Product → Prop
  | .node tree => tree.LeansLeft ∧
      if call = .statement then tree.StandsAlone else tree.isDeclaration = false
  | .nodes trees => ∀ tree ∈ trees, tree.LeansLeft ∧ tree.StandsAlone
  | .nothing => True

/-- A phrase that is read leans to the left. -/
theorem Product.leansLeft_of_read {extent : Phrase.Extent} {cursor : Cursor} {call : Call}
    {product : Product} (noStatement : call ≠ .statement)
    (read : ((Phrase.read extent cursor).map Product.node).outcome = .ok product) :
    product.LeansLeft call := by
  obtain ⟨node, readNode, rfl⟩ := Reply.outcome_map_eq_ok_iff.mp read
  obtain ⟨taken, -, -, derived⟩ := Phrase.read_sound readNode
  refine ⟨derived.expression.leansLeft, ?_⟩
  rw [if_neg noStatement]
  exact derived.expression.noDeclaration

/-- Whatever a call gives leans to the left, in each of its trees and at any depth. -/
theorem perform_leans_left {session : Session} {call : Call} {product : Product}
    (success : (session.perform call).outcome = .ok product) : product.LeansLeft call := by
  cases call with
  | statement =>
      obtain ⟨node, read, rfl⟩ := outcome_of_take success
      obtain ⟨body, _, -, -, statement⟩ := Cursor.statement_passes read
      exact ⟨statement.leansLeft, statement.standsAlone⟩
  | expression => exact Product.leansLeft_of_read (by decide) success
  | arithmetic => exact Product.leansLeft_of_read (by decide) success
  | factor => exact Product.leansLeft_of_read (by decide) success
  | program =>
      obtain ⟨nodes, read, rfl⟩ := outcome_of_take success
      intro node member
      obtain ⟨body, statement⟩ := Cursor.program_each read node member
      exact ⟨statement.leansLeft, statement.standsAlone⟩
  | save =>
      obtain rfl := Except.ok.inj success
      trivial
  | restore =>
      obtain rfl := Except.ok.inj success
      trivial

/-- Two assignments in a chain, and operations inside and around a call. -/
theorem perform_leans_left_assignments :
    let tokens := [.identifier "a", .ofText .assign "=", .identifier "b", .ofText .assign "=",
      .identifier "f", .ofText .leftParen "(", .integer 1, .ofText .plus "+", .identifier "c",
      .ofText .rightParen ")", .ofText .star "*", .integer 2, .ofText .semicolon ";"]
    let call := Node.call (.identifier "f")
      [.operation (.ofText .plus "+") (.leaf (.integer 1)) (.leaf (.identifier "c"))]
    let tree := Node.operation (.ofText .assign "=")
      (.operation (.ofText .assign "=") (.leaf (.identifier "a")) (.leaf (.identifier "b")))
      (.operation (.ofText .star "*") call (.leaf (.integer 2)))
    ((ofTokens tokens).perform .statement).outcome = .ok (.node tree) ∧
      tree.LeansLeft ∧ tree.StandsAlone := by
  intro tokens call tree
  have success : ((ofTokens tokens).perform .statement).outcome = .ok (.node tree) := rfl
  obtain ⟨leansLeft, standsAlone⟩ := perform_leans_left success
  exact ⟨success, leansLeft, standsAlone⟩

end Session

end CLike
