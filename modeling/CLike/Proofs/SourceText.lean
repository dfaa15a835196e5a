/-
Module: CLike.Proofs.SourceText
Layer: Proofs
Purpose: Statements that are written down as source text are read back as they were, up to the
  places of their tokens.
Main exports: Node.tokens, Node.IsFactor, Node.IsArithmetic, Node.IsAssignment, Node.IsCanonical,
  sourceText, Recovers, Node.IsCanonical.recovers, parseProgram_recovers,
  parseProgram_lex_sourceText
-/
import CLike.Proofs.Likeness
import CLike.Proofs.Spelling
import CLike.Proofs.StatementLanguage

namespace CLike

open Grammar

/-!
### The notation of trees

A tree is written from left to right, operators between their operands and without parentheses other
than those of calls and declarations.  So only trees that lean to the left can be read back.
-/

namespace Token

/-- The marks that the notation of a tree adds to the tokens of its nodes. -/
def opening : Token := ofText .leftParen "("

@[inherit_doc opening] def closing : Token := ofText .rightParen ")"

@[inherit_doc opening] def comma : Token := ofText .comma ","

@[inherit_doc opening] def semicolon : Token := ofText .semicolon ";"

end Token

/-- Some groups of tokens with one comma between neighbours. -/
def commaSeparated : List (List Token) → List Token
  | [] => []
  | first :: later => first ++ later.flatMap (Token.comma :: ·)

namespace Node

mutual

/-- The tokens of a tree in the order in which they are written.  Names of parameters are left out,
and there is no notation for blocks. -/
def tokens : Node → List Token
  | leaf token => [token]
  | callNamed name arguments =>
    { name with kind := .identifier } :: .opening ::
      (commaSeparated (tokensEach arguments) ++ [.closing])
  | operation operator left right => tokens left ++ operator :: tokens right
  | variableDeclaration name declaredType => [declaredType, name]
  | functionDeclaration name returnType parameterTypes =>
    returnType :: name :: .opening :: (commaSeparated (parameterTypes.map ([·])) ++ [.closing])
  | block _ _ => []

/-- The tokens of some trees, tree by tree. -/
def tokensEach : List Node → List (List Token)
  | [] => []
  | node :: rest => tokens node :: tokensEach rest

end

theorem tokensEach_eq_map (nodes : List Node) : tokensEach nodes = nodes.map tokens := by
  induction nodes with
  | nil => rfl
  | cons node nodes ih => rw [tokensEach, ih, List.map_cons]

/-- A call is written with the name that it was made of. -/
theorem tokens_call {callee : Token} {arguments : List Node} (isName : callee.kind = .identifier) :
    (call callee arguments).tokens =
      callee :: .opening :: (commaSeparated (arguments.map tokens) ++ [.closing]) := by
  rw [call, tokens, tokensEach_eq_map]
  cases callee
  cases isName
  rfl

mutual

/-- A literal, a name, or a call of arithmetic trees. -/
inductive IsFactor : Node → Prop where
  | leaf {token : Token} (lexable : token.Lexable)
      (isOperand : IsLiteral token ∨ token.kind = .identifier) : IsFactor (.leaf token)
  | call {callee : Token} {arguments : List Node} (isName : callee.kind = .identifier)
      (lexable : callee.Lexable) (each : ∀ argument ∈ arguments, IsArithmetic argument) :
      IsFactor (.call callee arguments)

/-- A chain of operations over factors that leans to the left. -/
inductive IsArithmetic : Node → Prop where
  | factor {node : Node} (factor : IsFactor node) : IsArithmetic node
  | operation {operator : Token} {left right : Node} (first : IsArithmetic left)
      (isOperator : operator.kind.isArithmetic = true) (lexable : operator.Lexable)
      (second : IsFactor right) : IsArithmetic (.operation operator left right)

end

/-- A chain of assignments to a name that leans to the left. -/
inductive IsAssignment : Node → Prop where
  | single {name operator : Token} {value : Node} (isName : name.kind = .identifier)
      (nameLexable : name.Lexable) (assigns : operator.kind = .assign) (lexable : operator.Lexable)
      (second : IsArithmetic value) : IsAssignment (.operation operator (.leaf name) value)
  | more {operator : Token} {left right : Node} (first : IsAssignment left)
      (assigns : operator.kind = .assign) (lexable : operator.Lexable)
      (second : IsArithmetic right) : IsAssignment (.operation operator left right)

/-- The trees of statements that can be written down. -/
inductive IsCanonical : Node → Prop where
  | variableDeclaration {name type : Token} (isType : type.kind.isType = true)
      (typeLexable : type.Lexable) (isName : name.kind = .identifier)
      (nameLexable : name.Lexable) : IsCanonical (.variableDeclaration name type)
  | functionDeclaration {name type : Token} {parameters : List Token}
      (isType : type.kind.isType = true) (typeLexable : type.Lexable)
      (isName : name.kind = .identifier) (nameLexable : name.Lexable)
      (typed : ∀ parameter ∈ parameters, parameter.kind = .intType ∨ parameter.kind = .charType)
      (lexable : ∀ parameter ∈ parameters, parameter.Lexable) :
      IsCanonical (.functionDeclaration name type parameters)
  | assignment {node : Node} (assignment : IsAssignment node) : IsCanonical node
  | call {callee : Token} {arguments : List Node} (isName : callee.kind = .identifier)
      (lexable : callee.Lexable) (each : ∀ argument ∈ arguments, IsArithmetic argument) :
      IsCanonical (.call callee arguments)

/-- The tokens of a statement with its semicolon, and what is written behind each. -/
def pieces (node : Node) : List (Token × String) :=
  node.tokens.map (·, " ") ++ [(.semicolon, "\n")]

end Node

/-- The source text of some statements: a space behind each token, and a line for each statement. -/
def sourceText (statements : List Node) : String := written (statements.flatMap Node.pieces)

/-!
### Reading trees back

Lexing gives the tokens of a tree back with other places.  However the tokens are placed, the
grammar derives a tree from them that differs from the first one in its places at most.
-/

/-- From the given tokens an item is derived that is the same up to what is forgotten, whatever
places the tokens have. -/
def Recovers {α β : Type} (Item : List Token → α → Prop) (forget : α → β) (tokens : List Token)
    (item : α) : Prop :=
  ∀ found : List Token, found.map Token.unplaced = tokens.map Token.unplaced →
    ∃ other, Item found other ∧ forget other = forget item

theorem kind_eq_of_unplaced_eq {one two : Token} (same : one.unplaced = two.unplaced) :
    one.kind = two.kind := by
  change one.unplaced.kind = two.unplaced.kind
  rw [same]

section Separated

variable {α β : Type} {Item : List Token → α → Prop} {forget : α → β} {tokensOf : α → List Token}

private theorem Recovers.separated_behind {items : List α}
    (each : ∀ item ∈ items, Recovers Item forget (tokensOf item) item) {before : List Token}
    {earlier : List α} (derived : Separated Item false before earlier) :
    ∀ found : List Token, found.map Token.unplaced =
        ((items.map tokensOf).flatMap (Token.comma :: ·)).map Token.unplaced →
      ∃ others, Separated Item false (before ++ found) (earlier ++ others) ∧
        others.map forget = items.map forget := by
  induction items generalizing before earlier with
  | nil =>
      intro found same
      obtain rfl := List.map_eq_nil_iff.mp same
      refine ⟨[], ?_, rfl⟩
      rw [List.append_nil, List.append_nil]
      exact derived
  | cons item items ih =>
      intro found same
      rcases List.forall_mem_cons.mp each with ⟨recovers, eachLater⟩
      rw [List.map_cons, List.flatMap_cons, List.cons_append, List.map_cons] at same
      rcases List.map_eq_cons_iff.mp same with ⟨mark, found, rfl, sameMark, same⟩
      rw [List.map_append] at same
      rcases List.map_eq_append_iff.mp same with ⟨first, later, rfl, sameFirst, sameLater⟩
      obtain ⟨other, next, sameItem⟩ := recovers first sameFirst
      have isComma : mark.kind = .comma := kind_eq_of_unplaced_eq sameMark
      obtain ⟨others, whole, sameItems⟩ :=
        ih eachLater (.item (.comma derived isComma) next) later sameLater
      refine ⟨other :: others, ?_, ?_⟩
      · simpa using whole
      · rw [List.map_cons, List.map_cons, sameItem, sameItems]

/-- Items that are recovered one by one are recovered with a comma between neighbours. -/
theorem Recovers.separated {items : List α}
    (each : ∀ item ∈ items, Recovers Item forget (tokensOf item) item) {found : List Token}
    (same : found.map Token.unplaced =
      (commaSeparated (items.map tokensOf)).map Token.unplaced) :
    ∃ fresh others, Separated Item fresh found others ∧
      others.map forget = items.map forget := by
  cases items with
  | nil =>
      obtain rfl := List.map_eq_nil_iff.mp same
      exact ⟨true, [], .nil, rfl⟩
  | cons item items =>
      rcases List.forall_mem_cons.mp each with ⟨recovers, eachLater⟩
      rw [List.map_cons, commaSeparated, List.map_append] at same
      rcases List.map_eq_append_iff.mp same with ⟨first, later, rfl, sameFirst, sameLater⟩
      obtain ⟨other, next, sameItem⟩ := recovers first sameFirst
      obtain ⟨others, whole, sameItems⟩ :=
        separated_behind eachLater (.item .nil next) later sameLater
      refine ⟨false, other :: others, whole, ?_⟩
      rw [List.map_cons, List.map_cons, sameItem, sameItems]

end Separated

/-- A pair of parentheses is recovered around what is recovered. -/
theorem exists_parentheses {name : Token} {inside found : List Token}
    (same : found.map Token.unplaced =
      (name :: .opening :: (inside ++ [.closing])).map Token.unplaced) :
    ∃ head opening middle closing, found = head :: opening :: (middle ++ [closing]) ∧
      head.unplaced = name.unplaced ∧ opening.kind = .leftParen ∧ closing.kind = .rightParen ∧
      middle.map Token.unplaced = inside.map Token.unplaced := by
  rw [List.map_cons, List.map_cons, List.map_append] at same
  rcases List.map_eq_cons_iff.mp same with ⟨head, found, rfl, sameHead, same⟩
  rcases List.map_eq_cons_iff.mp same with ⟨opening, found, rfl, sameOpening, same⟩
  rcases List.map_eq_append_iff.mp same with ⟨middle, found, rfl, sameMiddle, same⟩
  rcases List.map_eq_cons_iff.mp same with ⟨closing, found, rfl, sameClosing, same⟩
  obtain rfl := List.map_eq_nil_iff.mp same
  exact ⟨head, opening, middle, closing, rfl, sameHead, kind_eq_of_unplaced_eq sameOpening,
    kind_eq_of_unplaced_eq sameClosing, sameMiddle⟩

namespace Node

/-- Only the place of a name can be lost in a call of it. -/
theorem unplaced_call {head callee : Token} {others arguments : List Node}
    (sameName : head.unplaced = callee.unplaced)
    (sameArguments : others.map unplaced = arguments.map unplaced) :
    (call head others).unplaced = (call callee arguments).unplaced := by
  have literal : head.literal = callee.literal := by
    change head.unplaced.literal = callee.unplaced.literal
    rw [sameName]
  rw [call, call, unplaced, unplaced, unplacedEach_eq_map, unplacedEach_eq_map, sameArguments,
    Token.unplaced, Token.unplaced, literal]

/-- A call is recovered from its name and its arguments. -/
theorem exists_call {callee : Token} {arguments : List Node} (isName : callee.kind = .identifier)
    (each : ∀ argument ∈ arguments, Recovers Arithmetic Node.unplaced argument.tokens argument)
    {found : List Token}
    (same : found.map Token.unplaced = (call callee arguments).tokens.map Token.unplaced) :
    ∃ head opening middle closing fresh others, found = head :: opening :: (middle ++ [closing]) ∧
      head.kind = .identifier ∧ opening.kind = .leftParen ∧
      Separated Arithmetic fresh middle others ∧ closing.kind = .rightParen ∧
      (call head others).unplaced = (call callee arguments).unplaced := by
  rw [tokens_call isName] at same
  obtain ⟨head, opening, middle, closing, rfl, sameName, opens, closes, sameInside⟩ :=
    exists_parentheses same
  rcases Recovers.separated each sameInside with ⟨fresh, others, inside, sameArguments⟩
  exact ⟨head, opening, middle, closing, fresh, others, rfl,
    (kind_eq_of_unplaced_eq sameName).trans isName, opens, inside, closes,
    unplaced_call sameName sameArguments⟩

/-- An operation is recovered from its operands. -/
theorem exists_operation {First Second : List Token → Node → Prop} {operator : Token}
    {left right : Node} (first : Recovers First Node.unplaced left.tokens left)
    (second : Recovers Second Node.unplaced right.tokens right) {found : List Token}
    (same : found.map Token.unplaced =
      (operation operator left right).tokens.map Token.unplaced) :
    ∃ before sign more leftAgain rightAgain, found = before ++ sign :: more ∧
      First before leftAgain ∧ sign.kind = operator.kind ∧ Second more rightAgain ∧
      (operation sign leftAgain rightAgain).unplaced =
        (operation operator left right).unplaced := by
  rw [tokens, List.map_append, List.map_cons] at same
  obtain ⟨before, found, rfl, sameFirst, same⟩ := List.map_eq_append_iff.mp same
  obtain ⟨sign, more, rfl, sameOperator, sameSecond⟩ := List.map_eq_cons_iff.mp same
  rcases first before sameFirst with ⟨leftAgain, derivedFirst, sameLeft⟩
  rcases second more sameSecond with ⟨rightAgain, derivedSecond, sameRight⟩
  refine ⟨before, sign, more, leftAgain, rightAgain, rfl, derivedFirst,
    kind_eq_of_unplaced_eq sameOperator, derivedSecond, ?_⟩
  rw [unplaced, unplaced, sameOperator, sameLeft, sameRight]

mutual

-- The recursion is on the canonical form; a call hands it on to each of its arguments.
theorem IsFactor.recovers {node : Node} :
    IsFactor node → Recovers Factor Node.unplaced node.tokens node
  | .leaf _ isOperand => by
      intro found same
      obtain ⟨other, found, rfl, sameToken, same⟩ := List.map_eq_cons_iff.mp same
      obtain rfl := List.map_eq_nil_iff.mp same
      have kind := kind_eq_of_unplaced_eq sameToken
      refine ⟨.leaf other, ?_, congrArg Node.leaf sameToken⟩
      rcases isOperand with isLiteral | isName
      · apply Factor.literal
        rw [IsLiteral, kind]
        exact isLiteral
      · exact .name (kind.trans isName)
  | .call isName _ each => by
      intro found same
      obtain ⟨head, opening, middle, closing, fresh, others, rfl, headIsName, opens, inside, closes,
        sameNode⟩ :=
          exists_call isName (fun argument member => (each argument member).recovers) same
      exact ⟨.call head others, .call headIsName opens inside closes, sameNode⟩

theorem IsArithmetic.recovers {node : Node} :
    IsArithmetic node → Recovers Arithmetic Node.unplaced node.tokens node
  | .factor alone => by
      intro found same
      rcases alone.recovers found same with ⟨other, derived, sameNode⟩
      exact ⟨other, .factor derived, sameNode⟩
  | .operation first isOperator _ second => by
      intro found same
      obtain ⟨before, sign, more, left, right, rfl, derivedFirst, kind, derivedSecond, sameNode⟩ :=
        exists_operation first.recovers second.recovers same
      refine ⟨.operation sign left right, .operation derivedFirst ?_ derivedSecond, sameNode⟩
      rw [kind]
      exact isOperator

end

theorem IsAssignment.recovers {node : Node} (assignment : IsAssignment node) :
    Recovers Assignment Node.unplaced node.tokens node := by
  induction assignment with
  | single isName _ assigns _ second =>
      intro found same
      obtain ⟨name, found, rfl, sameName, same⟩ := List.map_eq_cons_iff.mp same
      obtain ⟨operator, more, rfl, sameOperator, same⟩ := List.map_eq_cons_iff.mp same
      rcases second.recovers more same with ⟨value, derived, sameValue⟩
      refine ⟨.operation operator (.leaf name) value, .single ?_ ?_ derived, ?_⟩
      · exact (kind_eq_of_unplaced_eq sameName).trans isName
      · exact (kind_eq_of_unplaced_eq sameOperator).trans assigns
      · rw [unplaced, unplaced, unplaced, unplaced, sameName, sameOperator, sameValue]
  | more _ assigns _ second ih =>
      intro found same
      obtain ⟨before, sign, more, left, right, rfl, derivedFirst, kind, derivedSecond, sameNode⟩ :=
        exists_operation ih second.recovers same
      exact ⟨.operation sign left right, .more derivedFirst (kind.trans assigns) derivedSecond,
        sameNode⟩

/-- A parameter without a name is recovered from its type. -/
theorem recovers_parameter {type : Token} (typed : type.kind = .intType ∨ type.kind = .charType) :
    Recovers Parameter Token.unplaced [type] type := by
  intro found same
  rcases List.map_eq_cons_iff.mp same with ⟨other, found, rfl, sameType, same⟩
  obtain rfl := List.map_eq_nil_iff.mp same
  refine ⟨other, .unnamed ?_, sameType⟩
  rw [kind_eq_of_unplaced_eq sameType]
  exact typed

/-- However its tokens are placed, a canonical statement is derived from them again. -/
theorem IsCanonical.recovers {node : Node} (canonical : IsCanonical node) :
    Recovers Statement Node.unplaced node.tokens node := by
  intro found same
  cases canonical with
  | variableDeclaration isType _ isName _ =>
      rcases List.map_eq_cons_iff.mp same with ⟨type, found, rfl, sameType, same⟩
      rcases List.map_eq_cons_iff.mp same with ⟨name, found, rfl, sameName, same⟩
      obtain rfl := List.map_eq_nil_iff.mp same
      refine ⟨_, .variableDeclaration ?_ ?_, ?_⟩
      · rw [kind_eq_of_unplaced_eq sameType]
        exact isType
      · exact (kind_eq_of_unplaced_eq sameName).trans isName
      · rw [unplaced, unplaced, sameName, sameType]
  | functionDeclaration isType _ isName _ typed _ =>
      rcases List.map_eq_cons_iff.mp same with ⟨type, found, rfl, sameType, same⟩
      obtain ⟨name, opening, middle, closing, rfl, sameName, opens, closes, sameInside⟩ :=
        exists_parentheses same
      obtain ⟨fresh, others, inside, sameParameters⟩ :=
        Recovers.separated (fun parameter member => recovers_parameter (typed parameter member))
          sameInside
      refine ⟨_, .functionDeclaration ?_ ?_ opens inside closes, ?_⟩
      · rw [kind_eq_of_unplaced_eq sameType]
        exact isType
      · exact (kind_eq_of_unplaced_eq sameName).trans isName
      · rw [unplaced, unplaced, sameName, sameType, sameParameters]
  | assignment assignment =>
      obtain ⟨other, derived, sameNode⟩ := assignment.recovers found same
      exact ⟨other, .assignment derived, sameNode⟩
  | call isName _ each =>
      obtain ⟨head, opening, middle, closing, fresh, others, rfl, headIsName, opens, inside, closes,
        sameNode⟩ :=
          exists_call isName (fun argument member => (each argument member).recovers) same
      exact ⟨.call head others, .call headIsName opens inside closes, sameNode⟩

end Node

/-!
### Writing trees down

All tokens of a canonical statement can be written down, so lexing gives them back.
-/

theorem lexable_commaSeparated {groups : List (List Token)}
    (each : ∀ group ∈ groups, ∀ token ∈ group, token.Lexable) :
    ∀ token ∈ commaSeparated groups, token.Lexable := by
  have isComma : Token.comma.Lexable := @Token.Lexable.single (",", .comma) (by decide) .unplaced
  cases groups with
  | nil => exact List.forall_mem_nil _
  | cons first later =>
      rcases List.forall_mem_cons.mp each with ⟨lexableFirst, lexableLater⟩
      rw [commaSeparated, List.forall_mem_append]
      constructor
      · exact lexableFirst
      · intro token member
        rcases List.mem_flatMap.mp member with ⟨group, isLater, member⟩
        exact List.forall_mem_cons.mpr ⟨isComma, lexableLater group isLater⟩ token member

theorem lexable_parentheses {name : Token} {inside : List Token} (nameLexable : name.Lexable)
    (lexable : ∀ token ∈ inside, token.Lexable) :
    ∀ token ∈ name :: .opening :: (inside ++ [.closing]), token.Lexable := by
  have opens : Token.opening.Lexable :=
    @Token.Lexable.single ("(", .leftParen) (by decide) .unplaced
  have closes : Token.closing.Lexable :=
    @Token.Lexable.single (")", .rightParen) (by decide) .unplaced
  rw [List.forall_mem_cons]
  constructor
  · exact nameLexable
  · rw [List.forall_mem_cons]
    constructor
    · exact opens
    · exact List.forall_mem_append.mpr ⟨lexable, List.forall_mem_singleton.mpr closes⟩

theorem lexable_operation {left right : List Token} {operator : Token}
    (first : ∀ token ∈ left, token.Lexable) (lexable : operator.Lexable)
    (second : ∀ token ∈ right, token.Lexable) :
    ∀ token ∈ left ++ operator :: right, token.Lexable :=
  List.forall_mem_append.mpr ⟨first, List.forall_mem_cons.mpr ⟨lexable, second⟩⟩

namespace Node

theorem lexable_call {callee : Token} {arguments : List Node} (isName : callee.kind = .identifier)
    (lexable : callee.Lexable)
    (each : ∀ argument ∈ arguments, ∀ token ∈ argument.tokens, token.Lexable) :
    ∀ token ∈ (call callee arguments).tokens, token.Lexable := by
  rw [tokens_call isName]
  apply lexable_parentheses lexable
  apply lexable_commaSeparated
  intro group member
  rcases List.mem_map.mp member with ⟨argument, isArgument, rfl⟩
  exact each argument isArgument

mutual

theorem IsFactor.lexable {node : Node} :
    IsFactor node → ∀ token ∈ node.tokens, token.Lexable
  | .leaf lexable _ => List.forall_mem_singleton.mpr lexable
  | .call isName lexable each =>
      lexable_call isName lexable fun argument member => (each argument member).lexable

theorem IsArithmetic.lexable {node : Node} :
    IsArithmetic node → ∀ token ∈ node.tokens, token.Lexable
  | .factor alone => alone.lexable
  | .operation first _ lexable second => lexable_operation first.lexable lexable second.lexable

end

theorem IsAssignment.lexable {node : Node} (assignment : IsAssignment node) :
    ∀ token ∈ node.tokens, token.Lexable := by
  induction assignment with
  | single _ nameLexable _ lexable second =>
      exact lexable_operation (List.forall_mem_singleton.mpr nameLexable) lexable second.lexable
  | more _ _ lexable second ih => exact lexable_operation ih lexable second.lexable

theorem IsCanonical.lexable {node : Node} (canonical : IsCanonical node) :
    ∀ token ∈ node.tokens, token.Lexable := by
  cases canonical with
  | variableDeclaration _ typeLexable _ nameLexable =>
      exact List.forall_mem_cons.mpr ⟨typeLexable, List.forall_mem_singleton.mpr nameLexable⟩
  | functionDeclaration _ typeLexable _ nameLexable _ lexable =>
      rw [tokens, List.forall_mem_cons]
      constructor
      · exact typeLexable
      · apply lexable_parentheses nameLexable
        apply lexable_commaSeparated
        intro group member
        rcases List.mem_map.mp member with ⟨parameter, isParameter, rfl⟩
        exact List.forall_mem_singleton.mpr (lexable parameter isParameter)
  | assignment assignment => exact assignment.lexable
  | call isName lexable each =>
      exact lexable_call isName lexable fun argument member => (each argument member).lexable

theorem IsCanonical.pieces_lexable {node : Node} (canonical : IsCanonical node) :
    ∀ piece ∈ node.pieces, piece.1.Lexable ∧ piece.1.Gap piece.2.toList := by
  have ends : Token.semicolon.Lexable :=
    @Token.Lexable.single (";", .semicolon) (by decide) .unplaced
  have spaced : ∀ token : Token, token.Gap " ".toList :=
    fun token => ⟨' ', [], rfl, by decide, .nil, fun _ => by decide⟩
  have newline : Token.semicolon.Gap "\n".toList := ⟨'\n', [], rfl, by decide, .nil, nofun⟩
  rw [pieces, List.forall_mem_append]
  constructor
  · intro piece member
    rcases List.mem_map.mp member with ⟨token, isToken, rfl⟩
    exact ⟨canonical.lexable token isToken, spaced token⟩
  · exact List.forall_mem_singleton.mpr ⟨ends, newline⟩

end Node

/-- The tokens of some statements are read from their source text. -/
theorem yields_sourceText {nodes : List Node} (canonical : ∀ node ∈ nodes, node.IsCanonical) :
    Yields (sourceText nodes).toList ((nodes.flatMap Node.pieces).map (·.1)) := by
  have each : ∀ piece ∈ nodes.flatMap Node.pieces,
      piece.1.Lexable ∧ piece.1.Gap piece.2.toList := by
    intro piece member
    rcases List.mem_flatMap.mp member with ⟨node, isStatement, member⟩
    exact (canonical node isStatement).pieces_lexable piece member
  exact .written (fun piece member => (each piece member).1) fun piece member =>
    (each piece member).2

/-!
### Programs
-/

/-- A statement of the grammar with its semicolon is read alone. -/
theorem Grammar.Statement.alone {body : List Token} {node : Node} (statement : Statement body node)
    {semicolon : Token} (ends : semicolon.kind = .semicolon) :
    IsSegment (body ++ [semicolon]) ∧
      (Cursor.alone (body ++ [semicolon])).outcome = .ok node := by
  constructor
  · exact ⟨body, semicolon, rfl, statement.unended, ends⟩
  · rw [Cursor.alone, Cursor.statement_complete statement ends rfl]

/-- However their tokens are placed, canonical statements are read back from them. -/
theorem parseProgram_recovers {nodes : List Node} (canonical : ∀ node ∈ nodes, node.IsCanonical)
    {found : List Token} (same : found.map Token.unplaced =
      ((nodes.flatMap Node.pieces).map (·.1)).map Token.unplaced) :
    ∃ others, parseProgram found = .ok others ∧
      others.map Node.unplaced = nodes.map Node.unplaced := by
  induction nodes generalizing found with
  | nil =>
      obtain rfl := List.map_eq_nil_iff.mp same
      exact ⟨[], congrArg Reply.outcome Cursor.program_nil, rfl⟩
  | cons node nodes ih =>
      rcases List.forall_mem_cons.mp canonical with ⟨isCanonical, canonicalLater⟩
      have shape : ((node :: nodes).flatMap Node.pieces).map (·.1) =
          node.tokens ++ Token.semicolon :: (nodes.flatMap Node.pieces).map (·.1) := by
        simp [Node.pieces, List.map_map, Function.comp_def]
      rw [shape, List.map_append, List.map_cons] at same
      rcases List.map_eq_append_iff.mp same with ⟨body, found, rfl, sameBody, same⟩
      rcases List.map_eq_cons_iff.mp same with ⟨semicolon, later, rfl, sameEnd, sameLater⟩
      obtain ⟨other, statement, sameNode⟩ := isCanonical.recovers body sameBody
      obtain ⟨isSegment, read⟩ := statement.alone (kind_eq_of_unplaced_eq sameEnd)
      obtain ⟨others, readLater, sameNodes⟩ := ih canonicalLater sameLater
      refine ⟨other :: others, ?_, ?_⟩
      · rw [parseProgram] at readLater ⊢
        rw [List.append_cons, Cursor.program_append_of_ok isSegment read]
        simp [Reply.embed, readLater, Except.map]
      · rw [List.map_cons, List.map_cons, sameNode, sameNodes]

/-- Statements that are written down are read back: the source text of canonical statements lexes
and parses, and gives the same trees up to the places of their tokens. -/
theorem parseProgram_lex_sourceText (nodes : List Node)
    (canonical : ∀ node ∈ nodes, node.IsCanonical) :
    ∃ tokens others, lex (sourceText nodes) = .ok tokens ∧ parseProgram tokens = .ok others ∧
      (others == nodes) = true := by
  rcases (yields_sourceText canonical).lex with ⟨tokens, read, sameTokens⟩
  obtain ⟨others, parsed, sameNodes⟩ := parseProgram_recovers canonical sameTokens
  exact ⟨tokens, others, read, parsed, Node.beq_iff_map_unplaced_eq.mpr sameNodes⟩

theorem parseProgram_lex_sourceText_sum :
    let type := Token.ofText .intType "int"
    let name := Token.identifier "x"
    let sum := Node.operation (.ofText .plus "+")
      (.call (.identifier "f") [.leaf (.integer 1), .leaf (.character 'c')]) (.leaf name)
    let nodes := [.variableDeclaration name type, .operation (.ofText .assign "=") (.leaf name) sum]
    ∃ tokens others, lex (sourceText nodes) = .ok tokens ∧ parseProgram tokens = .ok others ∧
      (others == nodes) = true := by
  intro type name sum nodes
  have typeLexable : type.Lexable :=
    @Token.Lexable.keyword ("int", .intType) (by decide) .unplaced
  have nameLexable : name.Lexable := .identifier (by decide) (by decide) .unplaced
  have assigns : (Token.ofText .assign "=").Lexable :=
    @Token.Lexable.single ("=", .assign) (by decide) .unplaced
  have plus : (Token.ofText .plus "+").Lexable :=
    @Token.Lexable.single ("+", .plus) (by decide) .unplaced
  have called : (Token.identifier "f").Lexable := .identifier (by decide) (by decide) .unplaced
  have one : (Node.leaf (.integer 1)).IsFactor :=
    .leaf (.integer (by decide) .unplaced) (.inl (.inl rfl))
  have letter : (Node.leaf (.character 'c')).IsFactor :=
    .leaf (.character (by decide) .unplaced) (.inl (.inr (.inl rfl)))
  have isSum : sum.IsArithmetic := by
    refine .operation (.factor (.call rfl called ?_)) rfl plus (.leaf nameLexable (.inr rfl))
    simp only [List.forall_mem_cons]
    exact ⟨.factor one, .factor letter, List.forall_mem_nil _⟩
  apply parseProgram_lex_sourceText nodes
  rw [List.forall_mem_cons]
  constructor
  · exact .variableDeclaration rfl typeLexable rfl nameLexable
  · exact List.forall_mem_singleton.mpr (.assignment (.single rfl nameLexable rfl assigns isSum))

end CLike
