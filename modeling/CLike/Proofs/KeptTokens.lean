/-
Module: CLike.Proofs.KeptTokens
Layer: Proofs
Purpose: A tree holds the tokens that it was read from, each of them once, in their order and with
  their values and places.  Only the marks of lists, the names of parameters and the semicolon of a
  statement are left out.
Main exports: Node.inOrder, calleesMarked, treeTokens, Grammar.Expression.inOrder_eq,
  Node.Declares, Grammar.Statement.declares, Session.perform_keeps_tokens
-/
import CLike.Proofs.CommaLists
import CLike.Proofs.History

namespace CLike

open Grammar

/-!
### The tokens of a tree

A tree is read from left to right.  Against the tokens that it was read from, parentheses and commas
are missing, and the name of a call has the class of a call.
-/

/-- The marks that hold the items of a list together. -/
def Kind.isMark (kind : Kind) : Bool := [Kind.leftParen, .rightParen, .comma].contains kind

/-- The types that a parameter can have. -/
def Kind.isParameterType (kind : Kind) : Bool := [Kind.intType, .charType].contains kind

theorem Kind.isParameterType_iff {kind : Kind} :
    kind.isParameterType = true ↔ kind = .intType ∨ kind = .charType := by
  simp [isParameterType]

namespace Node

mutual

/-- The tokens of a tree from left to right: an operator stands between its operands, the name of a
call before the arguments, and a type before the name that is declared. -/
def inOrder : Node → List Token
  | leaf token => [token]
  | callNamed name arguments => name :: inOrderEach arguments
  | operation operator left right => inOrder left ++ operator :: inOrder right
  | variableDeclaration name type => [type, name]
  | functionDeclaration name type parameters => type :: name :: parameters
  | block token statements => token :: inOrderEach statements

/-- The tokens of some trees, tree after tree. -/
def inOrderEach : List Node → List Token
  | [] => []
  | node :: rest => inOrder node ++ inOrderEach rest

end

theorem inOrderEach_append (nodes more : List Node) :
    inOrderEach (nodes ++ more) = inOrderEach nodes ++ inOrderEach more := by
  induction nodes with
  | nil => rfl
  | cons node nodes ih => simp only [List.cons_append, inOrderEach, ih, List.append_assoc]

end Node

/-- The tokens of a phrase, where each name with a parenthesis behind it has the class of a call. -/
def calleesMarked : List Token → List Token
  | [] => []
  | token :: rest =>
    if token.kind = .identifier ∧ rest.head?.any (·.kind == .leftParen) then
      { token with kind := .call } :: calleesMarked rest
    else token :: calleesMarked rest

/-- What a tree holds of the tokens of a phrase. -/
def treeTokens (tokens : List Token) : List Token :=
  (calleesMarked tokens).filter (!·.kind.isMark)

theorem calleesMarked_append {tokens more : List Token}
    (apart : ∀ token ∈ more.head?, token.kind ≠ .leftParen) :
    calleesMarked (tokens ++ more) = calleesMarked tokens ++ calleesMarked more := by
  have noOpening : more.head?.any (·.kind == .leftParen) = false := by
    apply Bool.eq_false_iff.mpr
    intro opens
    obtain ⟨token, isHead, isOpening⟩ := (Option.any_eq_true ..).mp opens
    exact apart token isHead (eq_of_beq isOpening)
  induction tokens with
  | nil => rfl
  | cons token rest ih =>
      have sameNext : (rest ++ more).head?.any (·.kind == .leftParen) =
          rest.head?.any (·.kind == .leftParen) := by
        cases rest with
        | nil => exact noOpening
        | cons next rest => rfl
      simp only [List.cons_append, calleesMarked, sameNext, ih]
      split
      · rfl
      · rfl

theorem treeTokens_append {tokens more : List Token}
    (apart : ∀ token ∈ more.head?, token.kind ≠ .leftParen) :
    treeTokens (tokens ++ more) = treeTokens tokens ++ treeTokens more := by
  simp only [treeTokens, calleesMarked_append apart, List.filter_append]

theorem treeTokens_mark {mark : Token} (isMark : mark.kind.isMark = true) (rest : List Token) :
    treeTokens (mark :: rest) = treeTokens rest := by
  have noName : mark.kind ≠ .identifier := Kind.ne_of_member isMark rfl
  simp [treeTokens, calleesMarked, noName, isMark]

theorem treeTokens_keep {token : Token} (noName : token.kind ≠ .identifier)
    (noMark : token.kind.isMark = false) (rest : List Token) :
    treeTokens (token :: rest) = token :: treeTokens rest := by
  simp [treeTokens, calleesMarked, noName, noMark]

theorem treeTokens_single {token : Token} (noMark : token.kind.isMark = false) :
    treeTokens [token] = [token] := by
  simp [treeTokens, calleesMarked, noMark]

/-- The parenthesis behind a name is left out, and the name becomes that of a call. -/
theorem treeTokens_call {name opening : Token} (isName : name.kind = .identifier)
    (opens : opening.kind = .leftParen) (rest : List Token) :
    treeTokens (name :: opening :: rest) = { name with kind := .call } :: treeTokens rest := by
  have noMark : Kind.call.isMark = false := by decide
  have isMark : Kind.leftParen.isMark = true := by decide
  simp [treeTokens, calleesMarked, isName, opens, noMark, isMark]

/-- Behind an operator or an `=` the tokens go on as before it. -/
theorem treeTokens_operation {tokens more : List Token} {operator : Token}
    (noName : operator.kind ≠ .identifier) (noMark : operator.kind.isMark = false) :
    treeTokens (tokens ++ operator :: more) =
      treeTokens tokens ++ operator :: treeTokens more := by
  have apart : ∀ token ∈ (operator :: more).head?, token.kind ≠ .leftParen := by
    rintro token ⟨⟩ opens
    simp [opens, Kind.isMark] at noMark
  rw [treeTokens_append apart, treeTokens_keep noName noMark]

theorem treeTokens_snoc_mark {tokens : List Token} {mark : Token} (isMark : mark.kind.isMark = true)
    (noOpening : mark.kind ≠ .leftParen) : treeTokens (tokens ++ [mark]) = treeTokens tokens := by
  have apart : ∀ token ∈ [mark].head?, token.kind ≠ .leftParen := by
    rintro token ⟨⟩
    exact noOpening
  rw [treeTokens_append apart, treeTokens_mark isMark]
  exact List.append_nil _

/-!
### Phrases

The derivation of a phrase builds its tree from the trees of its parts as it builds the tokens from
theirs.  None of the parts starts with a parenthesis, so each name has behind it in the whole what
it has behind it in its part.
-/

/-- An operator is no mark of a list. -/
theorem Kind.noMark_of_isArithmetic {kind : Kind} (isOperator : kind.isArithmetic = true) :
    kind.isMark = false := by
  have apart : ∀ mark ∈ [Kind.leftParen, .rightParen, .comma], kind ≠ mark := by
    intro mark isMark
    apply Kind.ne_of_member isOperator
    revert mark
    decide
  simp only [isMark, List.contains_eq_mem, decide_eq_false_iff_not]
  intro isMark
  exact apart kind isMark rfl

namespace Grammar

theorem IsLiteral.noMark {token : Token} (isLiteral : IsLiteral token) :
    token.kind.isMark = false := by
  rcases isLiteral with kind | kind | kind
  · simp [kind, Kind.isMark]
  · simp [kind, Kind.isMark]
  · simp [kind, Kind.isMark]

mutual

theorem Factor.inOrder_eq {tokens : List Token} {node : Node} :
    Factor tokens node → node.inOrder = treeTokens tokens
  | .literal isLiteral => (treeTokens_single isLiteral.noMark).symm
  | .name isName => (treeTokens_single (by simp [isName, Kind.isMark])).symm
  | .call isName opens inside closes => by
      have within := Separated.inOrder_eq inside
      have isMark : Kind.rightParen.isMark = true := by decide
      rw [treeTokens_call isName opens,
        treeTokens_snoc_mark (closes ▸ isMark) (ne_leftParen_of_closes closes), ← within]
      rfl

theorem Arithmetic.inOrder_eq {tokens : List Token} {node : Node} :
    Arithmetic tokens node → node.inOrder = treeTokens tokens
  | .factor alone => Factor.inOrder_eq alone
  | @Arithmetic.operation _ _ operator _ _ first isOperator second => by
      have noName : operator.kind ≠ .identifier := Kind.ne_of_member isOperator rfl
      rw [treeTokens_operation noName (Kind.noMark_of_isArithmetic isOperator),
        ← Arithmetic.inOrder_eq first, ← Factor.inOrder_eq second]
      rfl

theorem Separated.inOrder_eq {fresh : Bool} {tokens : List Token} {nodes : List Node} :
    Separated Arithmetic fresh tokens nodes → Node.inOrderEach nodes = treeTokens tokens
  | .nil => rfl
  | .comma before isComma => by
      have isMark : Kind.comma.isMark = true := by decide
      have noOpening : Kind.comma ≠ .leftParen := by decide
      rw [treeTokens_snoc_mark (isComma ▸ isMark) (isComma ▸ noOpening)]
      exact Separated.inOrder_eq before
  | .item before next => by
      rw [treeTokens_append next.not_opens, Node.inOrderEach_append, Separated.inOrder_eq before,
        ← Arithmetic.inOrder_eq next]
      exact congrArg _ (List.append_nil _)

end

theorem Expression.inOrder_eq {tokens : List Token} {node : Node}
    (expression : Expression tokens node) : node.inOrder = treeTokens tokens := by
  induction expression with
  | arithmetic alone => exact alone.inOrder_eq
  | assignment _ assigns second ih =>
      rw [treeTokens_operation (by simp [assigns]) (by simp [assigns, Kind.isMark]), ← ih,
        ← second.inOrder_eq]
      rfl

end Grammar

/-!
### Declarations

A declaration holds its type and its name and, of a function, the types of the parameters.
-/

/-- What a declaration holds of the tokens before its semicolon.  Between the parentheses of a
function the types are kept, and all else there is a comma or the name of a parameter. -/
inductive Node.Declares : List Token → Node → Prop where
  | variable {type name : Token} (isName : name.kind = .identifier) :
      Declares [type, name] (.variableDeclaration name type)
  | function {type name opening closing : Token} {inside : List Token}
      (isName : name.kind = .identifier) (opens : opening.kind = .leftParen)
      (closes : closing.kind = .rightParen)
      (plain : ∀ token ∈ inside, token.kind.isParameterType = true ∨ token.kind = .comma ∨
        token.kind = .identifier)
      (named : ∀ before parameter after, inside = before ++ parameter :: after →
        parameter.kind = .identifier → before.getLast?.any (·.kind.isParameterType) = true) :
      Declares (type :: name :: opening :: (inside ++ [closing]))
        (.functionDeclaration name type (inside.filter (·.kind.isParameterType)))

/-- A token that stands in two texts together stands in one of them. -/
theorem token_in_append {one two before after : List Token} {token : Token}
    (shape : one ++ two = before ++ token :: after) :
    (∃ behind, one = before ++ token :: behind) ∨
      ∃ front, before = one ++ front ∧ two = front ++ token :: after := by
  rcases List.append_eq_append_iff.mp shape with ⟨front, same, later⟩ | ⟨behind, same, later⟩
  · exact .inr ⟨front, same, later⟩
  · cases behind with
    | nil =>
        apply Or.inr
        refine ⟨[], ?_, later.symm⟩
        simpa using same.symm
    | cons first behind =>
        obtain ⟨rfl, -⟩ := List.cons.inj later
        exact .inl ⟨behind, same⟩

namespace Grammar

variable {fresh : Bool} {tokens types : List Token}

theorem Parameter.filter_eq {type : Token} (parameter : Parameter tokens type) :
    tokens.filter (·.kind.isParameterType) = [type] := by
  have isType := Kind.isParameterType_iff.mpr parameter.typed
  have noType : Kind.identifier.isParameterType = false := by decide
  cases parameter with
  | unnamed => simp [isType]
  | named _ isName => simp [isType, isName, noType]

/-- In the tokens of a parameter a name stands behind the type only. -/
theorem Parameter.name_behind_type {type : Token} (parameter : Parameter tokens type)
    {before after : List Token} {name : Token} (shape : tokens = before ++ name :: after)
    (isName : name.kind = .identifier) : before = [type] := by
  have noName : type.kind ≠ .identifier := by
    rcases parameter.typed with kind | kind
    · simp [kind]
    · simp [kind]
  cases before with
  | nil =>
      obtain ⟨rest, rfl⟩ := parameter.exists_head
      obtain ⟨rfl, -⟩ := List.cons.inj shape
      exact absurd isName noName
  | cons first before =>
      cases parameter with
      | unnamed => simp at shape
      | named =>
          obtain ⟨rfl, later⟩ := List.cons.inj shape
          cases before with
          | nil => rfl
          | cons second before => simp at later

/-- The types of the parameters are all the types in their list, in the same order. -/
theorem Separated.filter_eq (parameters : Separated Parameter fresh tokens types) :
    tokens.filter (·.kind.isParameterType) = types := by
  induction parameters with
  | nil => rfl
  | comma _ isComma ih =>
      have noType : Kind.comma.isParameterType = false := by decide
      simp [ih, isComma, noType]
  | item _ next ih => rw [List.filter_append, ih, next.filter_eq]

theorem Separated.plain_parameters (parameters : Separated Parameter fresh tokens types) :
    ∀ token ∈ tokens, token.kind.isParameterType = true ∨ token.kind = .comma ∨
      token.kind = .identifier := by
  refine parameters.forall_mem ?_ ?_
  · intro token isComma
    exact .inr (.inl isComma)
  · intro more type next token member
    cases next with
    | unnamed typed =>
        obtain rfl := List.mem_singleton.mp member
        exact .inl (Kind.isParameterType_iff.mpr typed)
    | named typed isName =>
        rcases List.mem_pair.mp member with rfl | rfl
        · exact .inl (Kind.isParameterType_iff.mpr typed)
        · exact .inr (.inr isName)

/-- Each name in a list of parameters stands behind a type. -/
theorem Separated.names_behind_types (parameters : Separated Parameter fresh tokens types) :
    ∀ before name after, tokens = before ++ name :: after → name.kind = .identifier →
      before.getLast?.any (·.kind.isParameterType) = true := by
  induction parameters with
  | nil =>
      intro before name after shape
      simp at shape
  | comma _ isComma ih =>
      intro before name after shape isName
      rcases token_in_append shape with ⟨behind, within⟩ | ⟨front, rfl, within⟩
      · exact ih before name behind within isName
      · cases front with
        | nil =>
            obtain ⟨rfl, -⟩ := List.cons.inj within
            simp [isComma] at isName
        | cons first front => simp at within
  | item _ next ih =>
      intro before name after shape isName
      rcases token_in_append shape with ⟨behind, within⟩ | ⟨front, rfl, within⟩
      · exact ih before name behind within isName
      · obtain rfl := next.name_behind_type within isName
        simp [Kind.isParameterType_iff.mpr next.typed]

/-- A statement that starts with a type is a declaration. -/
theorem Statement.declares {node : Node} (statement : Statement tokens node)
    (typed : tokens.head?.any (·.kind.isType) = true) : node.Declares tokens := by
  cases statement with
  | variableDeclaration isType isName => exact .variable isName
  | functionDeclaration isType isName opens inside closes =>
      obtain rfl := inside.filter_eq
      exact .function isName opens closes inside.plain_parameters inside.names_behind_types
  | assignment assignment =>
      obtain ⟨name, operator, rest, rfl, isName, -⟩ := assignment.exists_head
      simp [isName, Kind.isType, Kind.types] at typed
  | call isName => simp [isName, Kind.isType, Kind.types] at typed

/-- Every other statement is an expression. -/
theorem Statement.expression {node : Node} (statement : Statement tokens node)
    (untyped : ¬ tokens.head?.any (·.kind.isType) = true) : Expression tokens node := by
  cases statement with
  | variableDeclaration isType => exact absurd isType untyped
  | functionDeclaration isType => exact absurd isType untyped
  | assignment assignment => exact assignment.expression
  | call isName opens inside closes => exact .arithmetic (.factor (.call isName opens inside closes))

end Grammar

/-!
### Readings

The tokens between two places of the cursor are those that the reading passed.
-/

/-- The tokens that were passed are those from the one place to the other. -/
theorem Cursor.LeadsTo.extract_eq {tokens taken : List Token} {start finish : Cursor}
    (forward : start.LeadsTo finish) (placed : start.rest = tokens.drop start.position)
    (shape : start.rest = taken ++ finish.rest) :
    tokens.extract start.position finish.position = taken := by
  obtain ⟨passed, passedShape, moved⟩ := forward
  obtain rfl := List.append_cancel_right (passedShape.symm.trans shape)
  rw [List.extract_eq_take_drop, ← placed]
  exact Cursor.take_passed shape moved

namespace Cursor

variable {tokens : List Token} {cursor : Cursor} {node : Node}

/-- A phrase that is read holds the tokens that were passed. -/
theorem Settled.read_keeps {extent : Phrase.Extent} (settled : cursor.Settled tokens)
    (read : (Phrase.read extent cursor).outcome = .ok node) :
    node.inOrder =
      treeTokens (tokens.extract cursor.position (Phrase.read extent cursor).cursor.position) := by
  obtain ⟨taken, shape, moved, derived⟩ := Phrase.read_sound read
  have forward : cursor.LeadsTo (Phrase.read extent cursor).cursor := ⟨taken, shape, moved⟩
  rw [forward.extract_eq settled.rest_eq shape]
  exact derived.expression.inOrder_eq

/-- A statement that is read holds the tokens before its semicolon. -/
theorem Settled.statement_keeps (settled : cursor.Settled tokens)
    (read : cursor.statement.outcome = .ok node) :
    ∃ body semicolon,
      tokens.extract cursor.position cursor.statement.cursor.position = body ++ [semicolon] ∧
        semicolon.kind = .semicolon ∧
        if body.head?.any (·.kind.isType) then node.Declares body
        else node.inOrder = treeTokens body := by
  obtain ⟨body, semicolon, shape, ends, statement⟩ := statement_passes read
  have passed : cursor.rest = (body ++ [semicolon]) ++ cursor.statement.cursor.rest := by
    rw [shape, List.append_assoc, List.singleton_append]
  refine ⟨body, semicolon, cursor.leadsTo_statement.extract_eq settled.rest_eq passed, ends, ?_⟩
  split
  · next typed => exact statement.declares typed
  · next untyped => exact (statement.expression untyped).inOrder_eq

end Cursor

namespace Session

variable {tokens : List Token}

/-- After any calls, a call that gives a tree has put into it all the tokens that it passed.  Read
from left to right the tree of a phrase gives these tokens in their order, with their values and
places; only parentheses and commas are missing, and only the class of the names of calls is
another.  A statement has a semicolon more, and a declaration holds its type, its name and all
types between its parentheses. -/
theorem perform_keeps_tokens {session : Session} (reached : Reached tokens session) {call : Call}
    {node : Node} (success : (session.perform call).outcome = .ok (.node node)) :
    let passed :=
      tokens.extract session.cursor.position (session.perform call).session.cursor.position
    (call ≠ .statement → node.inOrder = treeTokens passed) ∧
    (call = .statement → ∃ body semicolon, passed = body ++ [semicolon] ∧
      semicolon.kind = .semicolon ∧
      if body.head?.any (·.kind.isType) then node.Declares body
      else node.inOrder = treeTokens body) := by
  intro passed
  have settled := reached.settled.1
  have ofReading : ∀ {reply : Reply Node}, (session.take .node reply).outcome = .ok (.node node) →
      reply.outcome = .ok node := by
    intro reply read
    obtain ⟨found, readFound, same⟩ := outcome_of_take read
    obtain rfl := Product.node.inj same
    exact readFound
  constructor
  · intro noStatement
    cases call with
    | statement => exact absurd rfl noStatement
    | expression => exact settled.read_keeps (ofReading success)
    | arithmetic => exact settled.read_keeps (ofReading success)
    | factor => exact settled.read_keeps (ofReading success)
    | program =>
        obtain ⟨nodes, -, same⟩ := outcome_of_take success
        cases same
    | save => cases success
    | restore => cases success
  · rintro rfl
    exact settled.statement_keeps (ofReading success)

/-- A sum with nested calls, and behind it a declaration with a name that is not kept. -/
theorem perform_keeps_tokens_nested_calls :
    let summed := [.integer 1, .ofText .plus "+", .identifier "f", .ofText .leftParen "(",
      .identifier "g", .ofText .leftParen "(", .ofText .rightParen ")", .ofText .comma ",",
      .identifier "b", .ofText .rightParen ")"]
    let body := [.ofText .intType "int", .identifier "f", .ofText .leftParen "(",
      .ofText .charType "char", .identifier "a", .ofText .rightParen ")"]
    let tokens := summed ++ body ++ [.ofText .semicolon ";"]
    let session := (ofTokens tokens).after [.expression]
    let sum := Node.operation (.ofText .plus "+") (.leaf (.integer 1))
      (.call (.identifier "f") [.call (.identifier "g") [], .leaf (.identifier "b")])
    let declaration := Node.functionDeclaration (.identifier "f") (.ofText .intType "int")
      [.ofText .charType "char"]
    ((ofTokens tokens).perform .expression).outcome = .ok (.node sum) ∧
      sum.inOrder = [.integer 1, .ofText .plus "+", .ofText .call "f", .ofText .call "g",
        .identifier "b"] ∧
      Reached tokens session ∧ (session.perform .statement).outcome = .ok (.node declaration) ∧
      declaration.Declares body := by
  intro summed body tokens session sum declaration
  have sums : ((ofTokens tokens).perform .expression).outcome = .ok (.node sum) := rfl
  have reached : Reached tokens session := Reached.start.after [.expression]
  have parameter : Separated Parameter false [Token.ofText .charType "char", .identifier "a"]
      [.ofText .charType "char"] := .item .nil (.named (.inr rfl) rfl)
  have statement : Statement body declaration := .functionDeclaration rfl rfl rfl parameter rfl
  have declares : session.cursor.statement = ⟨.ok declaration, ⟨17, [], 17⟩⟩ :=
    Cursor.statement_complete statement rfl rfl
  have performed : session.perform .statement =
      ⟨.ok (.node declaration), { session with cursor := ⟨17, [], 17⟩ }⟩ := by
    rw [perform, take, declares]
    rfl
  have success := congrArg Turn.outcome performed
  obtain ⟨ofPhrase, -⟩ := perform_keeps_tokens Reached.start sums
  obtain ⟨-, ofStatement⟩ := perform_keeps_tokens reached success
  obtain ⟨found, semicolon, shape, -, held⟩ := ofStatement rfl
  have stopped : (session.perform .statement).session.cursor.position = 17 :=
    congrArg (·.session.cursor.position) performed
  have sameBody : body = found := by
    have whole : body ++ [.ofText .semicolon ";"] = found ++ [semicolon] := by
      rw [← shape, stopped]
      rfl
    exact (List.append_inj' whole rfl).1
  subst sameBody
  refine ⟨sums, ?_, reached, success, held⟩
  rw [ofPhrase (by decide)]
  decide

end Session

end CLike
