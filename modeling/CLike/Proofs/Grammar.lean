/-
Module: CLike.Proofs.Grammar
Layer: Proofs
Purpose: The grammar of phrases and statements as derivations, which say of some tokens that they
  spell a syntax tree.  They look at the classes of the tokens only.
Main exports: Grammar.Separated, Grammar.Factor, Grammar.Arithmetic, Grammar.Expression,
  Grammar.Parameter, Grammar.Assignment, Grammar.Statement
-/
import CLike.Node
import Mathlib.Logic.Basic

namespace CLike

/-- The classes that occur in arithmetic. -/
def Kind.isPhrase (kind : Kind) : Bool :=
  [Kind.integer, .character, .string, .identifier, .leftParen, .rightParen, .comma].contains kind ||
    kind.isArithmetic

/-- The classes that occur in parameters. -/
def Kind.isParameter (kind : Kind) : Bool := [Kind.intType, .charType, .identifier].contains kind

/-- A member of a set of classes is none of those outside. -/
theorem Kind.ne_of_member {members : Kind → Bool} {kind other : Kind} (inside : members kind = true)
    (outside : members other = false) : kind ≠ other := by
  rintro rfl
  rw [inside] at outside
  cases outside

namespace Grammar

/-- Items with commas around and between them.  There is at least one comma between neighbours, and
there may be any number of commas more, also before the first item and behind the last one.  The
flag says whether another item can follow at once, which it can at the front and behind a comma. -/
inductive Separated {α : Type} (Item : List Token → α → Prop) :
    Bool → List Token → List α → Prop where
  | nil : Separated Item true [] []
  | comma {fresh : Bool} {tokens : List Token} {items : List α} {mark : Token}
      (before : Separated Item fresh tokens items) (isComma : mark.kind = .comma) :
      Separated Item true (tokens ++ [mark]) items
  | item {tokens more : List Token} {items : List α} {item : α}
      (before : Separated Item true tokens items) (next : Item more item) :
      Separated Item false (tokens ++ more) (items ++ [item])

/-- The tokens that are a factor by themselves, a name apart. -/
def IsLiteral (token : Token) : Prop :=
  token.kind = .integer ∨ token.kind = .character ∨ token.kind = .string

mutual

/-- `factor := integer | character | string | identifier | identifier "(" arguments ")"`, where the
arguments are arithmetic with commas. -/
inductive Factor : List Token → Node → Prop where
  | literal {token : Token} (isLiteral : IsLiteral token) : Factor [token] (.leaf token)
  | name {name : Token} (isName : name.kind = .identifier) : Factor [name] (.leaf name)
  | call {name opening closing : Token} {fresh : Bool} {tokens : List Token}
      {arguments : List Node} (isName : name.kind = .identifier)
      (opens : opening.kind = .leftParen) (inside : Separated Arithmetic fresh tokens arguments)
      (closes : closing.kind = .rightParen) :
      Factor (name :: opening :: (tokens ++ [closing])) (.call name arguments)

/-- `arithmetic := factor (operator factor)*`, leaning to the left. -/
inductive Arithmetic : List Token → Node → Prop where
  | factor {tokens : List Token} {node : Node} (factor : Factor tokens node) :
      Arithmetic tokens node
  | operation {tokens more : List Token} {operator : Token} {left right : Node}
      (first : Arithmetic tokens left) (isOperator : operator.kind.isArithmetic = true)
      (second : Factor more right) :
      Arithmetic (tokens ++ operator :: more) (.operation operator left right)

end

/-- `expression := arithmetic ("=" arithmetic)*`, leaning to the left. -/
inductive Expression : List Token → Node → Prop where
  | arithmetic {tokens : List Token} {node : Node} (arithmetic : Arithmetic tokens node) :
      Expression tokens node
  | assignment {tokens more : List Token} {operator : Token} {left right : Node}
      (first : Expression tokens left) (assigns : operator.kind = .assign)
      (second : Arithmetic more right) :
      Expression (tokens ++ operator :: more) (.operation operator left right)

/-- `assignment := identifier "=" arithmetic ("=" arithmetic)*`, leaning to the left. -/
inductive Assignment : List Token → Node → Prop where
  | single {name operator : Token} {tokens : List Token} {value : Node}
      (isName : name.kind = .identifier) (assigns : operator.kind = .assign)
      (second : Arithmetic tokens value) :
      Assignment (name :: operator :: tokens) (.operation operator (.leaf name) value)
  | more {tokens more : List Token} {operator : Token} {left right : Node}
      (first : Assignment tokens left) (assigns : operator.kind = .assign)
      (second : Arithmetic more right) :
      Assignment (tokens ++ operator :: more) (.operation operator left right)

/-- `parameter := ("int" | "char") identifier?`, of which the type is kept. -/
inductive Parameter : List Token → Token → Prop where
  | unnamed {type : Token} (typed : type.kind = .intType ∨ type.kind = .charType) :
      Parameter [type] type
  | named {type name : Token} (typed : type.kind = .intType ∨ type.kind = .charType)
      (isName : name.kind = .identifier) : Parameter [type, name] type

/-- The four forms of a statement, without the semicolon. -/
inductive Statement : List Token → Node → Prop where
  /-- `type identifier` -/
  | variableDeclaration {type name : Token} (isType : type.kind.isType = true)
      (isName : name.kind = .identifier) :
      Statement [type, name] (.variableDeclaration name type)
  /-- `type identifier "(" parameters ")"`, where the parameters are separated by commas. -/
  | functionDeclaration {type name opening closing : Token} {fresh : Bool} {tokens : List Token}
      {types : List Token} (isType : type.kind.isType = true) (isName : name.kind = .identifier)
      (opens : opening.kind = .leftParen) (inside : Separated Parameter fresh tokens types)
      (closes : closing.kind = .rightParen) :
      Statement (type :: name :: opening :: (tokens ++ [closing]))
        (.functionDeclaration name type types)
  /-- `identifier "=" arithmetic ("=" arithmetic)*` -/
  | assignment {tokens : List Token} {node : Node} (assignment : Assignment tokens node) :
      Statement tokens node
  /-- `identifier "(" arguments ")"` -/
  | call {name opening closing : Token} {fresh : Bool} {tokens : List Token}
      {arguments : List Node} (isName : name.kind = .identifier)
      (opens : opening.kind = .leftParen) (inside : Separated Arithmetic fresh tokens arguments)
      (closes : closing.kind = .rightParen) :
      Statement (name :: opening :: (tokens ++ [closing])) (.call name arguments)

/-!
### The tokens of a derivation

Neither a semicolon nor an `=` occurs in arithmetic, however deep its calls are nested, so an
assignment can be cut at its first `=` and a statement ends at its first semicolon.
-/

mutual

theorem Factor.isPhrase {tokens : List Token} {node : Node} :
    Factor tokens node → ∀ token ∈ tokens, token.kind.isPhrase = true
  | .literal isLiteral => by
      intro token member
      rw [List.mem_singleton.mp member]
      rcases isLiteral with kind | kind | kind <;> rw [kind] <;> rfl
  | .name isName => by
      intro token member
      rw [List.mem_singleton.mp member, isName]
      rfl
  | .call isName opens inside closes => by
      intro token member
      simp only [List.mem_cons, List.mem_append, List.not_mem_nil, or_false] at member
      rcases member with rfl | rfl | member | rfl
      · rw [isName]
        rfl
      · rw [opens]
        rfl
      · exact Separated.isPhrase inside token member
      · rw [closes]
        rfl

theorem Arithmetic.isPhrase {tokens : List Token} {node : Node} :
    Arithmetic tokens node → ∀ token ∈ tokens, token.kind.isPhrase = true
  | .factor alone => Factor.isPhrase alone
  | .operation first isOperator second => by
      intro token member
      rcases List.mem_append.mp member with member | member
      · exact Arithmetic.isPhrase first token member
      · rcases List.mem_cons.mp member with rfl | member
        · simp [Kind.isPhrase, isOperator]
        · exact Factor.isPhrase second token member

theorem Separated.isPhrase {fresh : Bool} {tokens : List Token} {nodes : List Node} :
    Separated Arithmetic fresh tokens nodes → ∀ token ∈ tokens, token.kind.isPhrase = true
  | .nil => fun _ member => absurd member List.not_mem_nil
  | .comma before isComma => by
      intro token member
      rcases List.mem_append.mp member with member | member
      · exact Separated.isPhrase before token member
      · rw [List.mem_singleton.mp member, isComma]
        rfl
  | .item before next => by
      intro token member
      rcases List.mem_append.mp member with member | member
      · exact Separated.isPhrase before token member
      · exact Arithmetic.isPhrase next token member

end

/-- A factor starts with a literal or a name, and so does arithmetic. -/
theorem Factor.exists_head {tokens : List Token} {node : Node} (factor : Factor tokens node) :
    ∃ first rest, tokens = first :: rest ∧ (IsLiteral first ∨ first.kind = .identifier) := by
  cases factor with
  | literal isLiteral => exact ⟨_, [], rfl, .inl isLiteral⟩
  | name isName => exact ⟨_, [], rfl, .inr isName⟩
  | call isName => exact ⟨_, _, rfl, .inr isName⟩

theorem Arithmetic.exists_head {tokens : List Token} {node : Node} :
    Arithmetic tokens node →
      ∃ first rest, tokens = first :: rest ∧ (IsLiteral first ∨ first.kind = .identifier)
  | .factor alone => alone.exists_head
  | .operation first _ _ => by
      rcases Arithmetic.exists_head first with ⟨token, rest, rfl, starts⟩
      exact ⟨token, _, List.cons_append .., starts⟩

theorem Parameter.typed {tokens : List Token} {type : Token} (parameter : Parameter tokens type) :
    type.kind = .intType ∨ type.kind = .charType := by
  cases parameter with
  | unnamed typed => exact typed
  | named typed => exact typed

theorem Parameter.exists_head {tokens : List Token} {type : Token}
    (parameter : Parameter tokens type) : ∃ rest, tokens = type :: rest := by
  cases parameter with
  | unnamed => exact ⟨[], rfl⟩
  | named => exact ⟨_, rfl⟩

theorem Parameter.isParameter {tokens : List Token} {type : Token}
    (parameter : Parameter tokens type) : ∀ token ∈ tokens, token.kind.isParameter = true := by
  have ofType : type.kind.isParameter = true := by
    rcases parameter.typed with kind | kind <;> rw [kind] <;> rfl
  cases parameter with
  | unnamed => exact List.forall_mem_singleton.mpr ofType
  | named _ isName =>
      rw [List.forall_mem_cons]
      constructor
      · exact ofType
      · rw [List.forall_mem_singleton]
        rw [isName]
        rfl

/-- What holds of commas and of the tokens of items holds of all tokens of separated items. -/
theorem Separated.forall_mem {α : Type} {Item : List Token → α → Prop} {fresh : Bool}
    {tokens : List Token} {items : List α} {property : Token → Prop}
    (separated : Separated Item fresh tokens items)
    (commas : ∀ token, token.kind = .comma → property token)
    (each : ∀ more item, Item more item → ∀ token ∈ more, property token) :
    ∀ token ∈ tokens, property token := by
  induction separated with
  | nil => exact List.forall_mem_nil _
  | comma _ isComma ih =>
      exact List.forall_mem_append.mpr ⟨ih, List.forall_mem_singleton.mpr (commas _ isComma)⟩
  | item _ next ih => exact List.forall_mem_append.mpr ⟨ih, each _ _ next⟩

theorem Parameter.unended {tokens : List Token} {type : Token} (parameter : Parameter tokens type) :
    ∀ token ∈ tokens, token.kind ≠ .semicolon :=
  fun token member => Kind.ne_of_member (parameter.isParameter token member) rfl

/-- Of separated items no token is a semicolon if none is in an item. -/
theorem Separated.unended {α : Type} {Item : List Token → α → Prop} {fresh : Bool}
    {tokens : List Token} {items : List α} (separated : Separated Item fresh tokens items)
    (each : ∀ more item, Item more item → ∀ token ∈ more, token.kind ≠ .semicolon) :
    ∀ token ∈ tokens, token.kind ≠ .semicolon :=
  separated.forall_mem (fun _ isComma => ne_of_eq_of_ne isComma (by decide)) each

theorem Arithmetic.unended {tokens : List Token} {node : Node}
    (arithmetic : Arithmetic tokens node) :
    ∀ token ∈ tokens, token.kind ≠ .semicolon :=
  fun token member => Kind.ne_of_member (arithmetic.isPhrase token member) rfl

/-- Neither does an assignment contain a semicolon. -/
theorem Assignment.unended {tokens : List Token} {node : Node}
    (assignment : Assignment tokens node) : ∀ token ∈ tokens, token.kind ≠ .semicolon := by
  induction assignment with
  | single isName assigns second =>
      exact List.forall_mem_cons.mpr ⟨ne_of_eq_of_ne isName (by decide),
        List.forall_mem_cons.mpr ⟨ne_of_eq_of_ne assigns (by decide), second.unended⟩⟩
  | more _ assigns second ih =>
      exact List.forall_mem_append.mpr ⟨ih,
        List.forall_mem_cons.mpr ⟨ne_of_eq_of_ne assigns (by decide), second.unended⟩⟩

/-- A statement ends at the first semicolon behind its start. -/
theorem Statement.unended {tokens : List Token} {node : Node} (statement : Statement tokens node) :
    ∀ token ∈ tokens, token.kind ≠ .semicolon := by
  -- The forms with parentheses differ in what stands before and between these only.
  have enclosed : ∀ {opening closing : Token} {inside : List Token},
      opening.kind = .leftParen → closing.kind = .rightParen →
      (∀ token ∈ inside, token.kind ≠ .semicolon) →
        ∀ token ∈ opening :: (inside ++ [closing]), token.kind ≠ .semicolon := by
    intro opening closing inside opens closes clean
    rw [List.forall_mem_cons]
    constructor
    · exact ne_of_eq_of_ne opens (by decide)
    · rw [List.forall_mem_append]
      constructor
      · exact clean
      · exact List.forall_mem_singleton.mpr (ne_of_eq_of_ne closes (by decide))
  cases statement with
  | variableDeclaration isType isName =>
      rw [List.forall_mem_cons]
      constructor
      · exact Kind.ne_of_member isType rfl
      · exact List.forall_mem_singleton.mpr (ne_of_eq_of_ne isName (by decide))
  | functionDeclaration isType isName opens inside closes =>
      rw [List.forall_mem_cons]
      constructor
      · exact Kind.ne_of_member isType rfl
      · rw [List.forall_mem_cons]
        constructor
        · exact ne_of_eq_of_ne isName (by decide)
        · exact enclosed opens closes (inside.unended fun _ _ => Parameter.unended)
  | assignment assignment => exact assignment.unended
  | call isName opens inside closes =>
      rw [List.forall_mem_cons]
      constructor
      · exact ne_of_eq_of_ne isName (by decide)
      · exact enclosed opens closes (inside.unended fun _ _ => Arithmetic.unended)

/-!
### The roots of trees

The root tells an assignment from arithmetic, and a call from a longer chain.
-/

/-- Arithmetic of one token is a leaf. -/
theorem Arithmetic.eq_leaf {token : Token} {node : Node} (arithmetic : Arithmetic [token] node) :
    node = .leaf token := by
  generalize single : [token] = tokens at arithmetic
  cases arithmetic with
  | factor alone =>
      cases alone with
      | literal => rw [List.singleton_inj.mp single]
      | name => rw [List.singleton_inj.mp single]
      | call => cases single
  | operation first _ second =>
      rcases first.exists_head with ⟨_, _, rfl, -⟩
      simp at single

theorem Factor.token_ne_assign {tokens : List Token} {node : Node} (factor : Factor tokens node) :
    node.token.kind ≠ .assign := by
  cases factor with
  | literal isLiteral =>
      rcases isLiteral with kind | kind | kind <;> exact ne_of_eq_of_ne kind (by decide)
  | name isName => exact ne_of_eq_of_ne isName (by decide)
  | call => nofun

theorem Arithmetic.token_ne_assign {tokens : List Token} {node : Node}
    (arithmetic : Arithmetic tokens node) : node.token.kind ≠ .assign := by
  cases arithmetic with
  | factor alone => exact alone.token_ne_assign
  | operation _ isOperator _ => exact Kind.ne_assign_of_isArithmetic isOperator

/-- A chain with a call at its root is that call. -/
theorem Expression.call {tokens : List Token} {node : Node} (expression : Expression tokens node)
    (isCall : node.token.kind = .call) : Statement tokens node := by
  cases expression with
  | arithmetic alone =>
      cases alone with
      | factor alone =>
          cases alone with
          | literal isLiteral =>
              rcases isLiteral with kind | kind | kind <;> exact nomatch kind.symm.trans isCall
          | name isName => exact nomatch isName.symm.trans isCall
          | call isName opens inside closes => exact .call isName opens inside closes
      | operation _ isOperator _ =>
          rw [Node.token] at isCall
          rw [isCall] at isOperator
          cases isOperator
  | assignment _ assigns _ => exact nomatch assigns.symm.trans isCall

theorem Assignment.expression {tokens : List Token} {node : Node}
    (assignment : Assignment tokens node) : Expression tokens node := by
  induction assignment with
  | single isName assigns second =>
      exact .assignment (.arithmetic (.factor (.name isName))) assigns second
  | more _ assigns second ih => exact .assignment ih assigns second

theorem Assignment.token_eq_assign {tokens : List Token} {node : Node}
    (assignment : Assignment tokens node) : node.token.kind = .assign := by
  cases assignment with
  | single _ assigns _ => exact assigns
  | more _ assigns _ => exact assigns

/-- An assignment starts with its name and the first `=`. -/
theorem Assignment.exists_head {tokens : List Token} {node : Node}
    (assignment : Assignment tokens node) : ∃ name operator rest,
      tokens = name :: operator :: rest ∧ name.kind = .identifier ∧ operator.kind = .assign := by
  induction assignment with
  | single isName assigns _ => exact ⟨_, _, _, rfl, isName, assigns⟩
  | more _ _ _ ih =>
      rcases ih with ⟨name, operator, rest, rfl, isName, assigns⟩
      exact ⟨name, operator, _, rfl, isName, assigns⟩

/-- An expression with `=` at its root has arithmetic before its first `=`, and it is an assignment
if that is a name. -/
theorem Expression.exists_assign {tokens : List Token} {node : Node}
    (expression : Expression tokens node) (assigns : node.token.kind = .assign) :
    ∃ first leftmost operator rest, tokens = first ++ operator :: rest ∧
      Arithmetic first leftmost ∧ operator.kind = .assign ∧
      (∀ name, first = [name] → name.kind = .identifier → Assignment tokens node) := by
  induction expression with
  | arithmetic alone => exact absurd assigns alone.token_ne_assign
  | @assignment tokens more operator left right first assigns second ih =>
      cases first with
      | arithmetic alone =>
          refine ⟨tokens, left, operator, more, rfl, alone, assigns, ?_⟩
          rintro name rfl isName
          obtain rfl := alone.eq_leaf
          exact .single isName assigns second
      | assignment _ assignsBefore _ =>
          obtain ⟨first, leftmost, earlier, rest, shape, arithmetic, assignsFirst, isAssignment⟩ :=
            ih assignsBefore
          refine ⟨first, leftmost, earlier, rest ++ operator :: more, ?_, arithmetic,
            assignsFirst, ?_⟩
          · rw [shape, List.append_assoc, List.cons_append]
          · intro name single isName
            exact .more (isAssignment name single isName) assigns second

end Grammar

end CLike
