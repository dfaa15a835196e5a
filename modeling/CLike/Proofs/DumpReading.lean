/-
Module: CLike.Proofs.DumpReading
Layer: Proofs
Purpose: The symbolic expressions of the trees of a source text say which trees they are, although
  nothing in them is escaped.
Main exports: TellsApart, Token.IsWhole.tellsApart, Node.Legible, Node.Legible.tellsApart,
  Node.Legible.sameLine, Node.IsCanonical.legible, treeListing_tells_apart
-/
import CLike.CommandLine.Report
import CLike.Proofs.ParsedTrees

namespace CLike

/-!
### Telling texts apart

A text in which nothing is escaped can still be read piece by piece, if from its front on it is
clear which item is written there and where it ends.  For tokens this is what lexing says: whatever
is read from two equal texts is the same.
-/

/-- If a text starts with the first item and also with the second one, they are the same up to what
is forgotten, and the same text follows them.  What follows an item starts with a character that is
part of no word. -/
def TellsApart {α β : Type} (write : α → List Char) (forget : α → β) (one two : α) : Prop :=
  ∀ rest others, Ended isWordChar rest → Ended isWordChar others →
    write one ++ rest = write two ++ others → forget one = forget two ∧ rest = others

/-- A space is part of no word. -/
theorem ended_space (rest : List Char) : Ended isWordChar (' ' :: rest) :=
  ⟨' ', rest, rfl, by decide⟩

theorem ended_closing (rest : List Char) : Ended isWordChar (')' :: rest) :=
  ⟨')', rest, rfl, by decide⟩

namespace Token

/-- Every token is read in front of a space. -/
theorem Lexable.reads_space {token : Token} (lexable : token.Lexable) (rest : List Char) :
    Recognizer.usual.findSome? (·.read? (token.spelling.toList ++ ' ' :: rest)) =
      some (.token token.spelling.toList.length token.kind token.literal) := by
  apply lexable.reads
  · intro isSingle next same
    obtain rfl := Option.some.inj same
    decide
  · exact fun _ => ended_space rest

/-- Tokens are told apart by reading them. -/
theorem unplaced_eq_of_reads {one two : Token} {rest others : List Char}
    (reads : Recognizer.usual.findSome? (·.read? (one.spelling.toList ++ rest)) =
      some (.token one.spelling.toList.length one.kind one.literal))
    (readsOther : Recognizer.usual.findSome? (·.read? (two.spelling.toList ++ others)) =
      some (.token two.spelling.toList.length two.kind two.literal))
    (same : one.spelling.toList ++ rest = two.spelling.toList ++ others) :
    one.unplaced = two.unplaced ∧ rest = others := by
  rw [same, readsOther] at reads
  injection reads with reading
  injection reading with width kind literal
  constructor
  · rw [unplaced, unplaced, kind, literal]
  · exact (List.append_inj same width.symm).2

/-- A token to which nothing behind it is added, unless it goes on as a word. -/
structure IsWhole (token : Token) : Prop where
  lexable : token.Lexable
  isSingle_eq_false : token.kind.isSingle = false

/-- A name or a type. -/
structure IsWord (token : Token) : Prop where
  lexable : token.Lexable
  isWord : token.kind = .identifier ∨ token.kind.isType = true

namespace IsWhole

variable {one two : Token}

theorem reads {rest : List Char} (whole : one.IsWhole) (ended : Ended isWordChar rest) :
    Recognizer.usual.findSome? (·.read? (one.spelling.toList ++ rest)) =
      some (.token one.spelling.toList.length one.kind one.literal) :=
  whole.lexable.reads (fun isSingle => nomatch whole.isSingle_eq_false.symm.trans isSingle)
    fun _ => ended

/-- Whole tokens are told apart by their spellings. -/
theorem tellsApart (whole : one.IsWhole) (other : two.IsWhole) :
    TellsApart (·.spelling.toList) unplaced one two :=
  fun _ _ ended endedOther => unplaced_eq_of_reads (whole.reads ended) (other.reads endedOther)

/-- Literals and names are whole. -/
theorem of_operand (lexable : one.Lexable)
    (isOperand : Grammar.IsLiteral one ∨ one.kind = .identifier) : one.IsWhole := by
  refine ⟨lexable, ?_⟩
  rcases isOperand with (kind | kind | kind) | kind <;> rw [kind] <;> decide

end IsWhole

namespace IsWord

variable {one two : Token}

theorem isWhole (word : one.IsWord) : one.IsWhole := by
  rcases word with ⟨lexable, isWord⟩
  refine ⟨lexable, ?_⟩
  rw [Kind.isType_iff] at isWord
  rcases isWord with kind | kind | kind | kind <;> rw [kind] <;> decide

/-- Names and types are written bare. -/
theorem spelling_eq (word : one.IsWord) : one.spelling = one.text := by
  rcases word with ⟨-, isWord⟩
  rw [Kind.isType_iff] at isWord
  apply spelling_of_bare
  · rcases isWord with kind | kind | kind | kind <;> rw [kind] <;> decide
  · rcases isWord with kind | kind | kind | kind <;> rw [kind] <;> decide

/-- Names and types are told apart by their texts. -/
theorem tellsApart (word : one.IsWord) (other : two.IsWord) :
    TellsApart (·.text.toList) unplaced one two := by
  have apart := word.isWhole.tellsApart other.isWhole
  rwa [TellsApart, word.spelling_eq, other.spelling_eq] at apart

theorem sameLine (word : one.IsWord) : '\n' ∉ one.text.toList := by
  rw [← word.spelling_eq]
  exact word.lexable.spelling_sameLine.2

end IsWord

/-- A parenthesis is read as such, whatever follows. -/
theorem reads_parenthesis {mark : Char} (isMark : mark = '(' ∨ mark = ')') (rest : List Char) :
    ∃ kind, kind.isSingle = true ∧ Recognizer.usual.findSome? (·.read? (mark :: rest)) =
      some (.token 1 kind (.text (String.ofList [mark]))) := by
  have foreign : ∀ recognizer ∈ [Recognizer.comment, .compound],
      recognizer.opens mark = false := by
    rcases isMark with rfl | rfl <;> decide
  obtain ⟨kind, known⟩ : ∃ kind, singleOperators.kindOf? (String.ofList [mark]) = some kind := by
    rcases isMark with rfl | rfl
    · exact ⟨.leftParen, by decide⟩
    · exact ⟨.rightParen, by decide⟩
  refine ⟨kind, Kind.isSingle_of_mem (Vocabulary.mem_of_kindOf? known), ?_⟩
  exact Recognizer.usual_reads [.comment, .compound] .single rfl
    (Recognizer.declined_of_opens foreign rest) (Recognizer.single_reads known rest)

/-- A whole token does not start with a parenthesis. -/
theorem IsWhole.ne_parenthesis {token : Token} (whole : token.IsWhole) {mark : Char}
    (isMark : mark = '(' ∨ mark = ')') {rest others : List Char} (ended : Ended isWordChar rest) :
    token.spelling.toList ++ rest ≠ mark :: others := by
  intro same
  obtain ⟨kind, isSingle, readsMark⟩ := reads_parenthesis isMark others
  have reads := whole.reads ended
  rw [same, readsMark] at reads
  injection reads with reading
  injection reading with width sameKind literal
  rw [sameKind, whole.isSingle_eq_false] at isSingle
  cases isSingle

end Token

/-!
### Lists in texts

The items of a list stand behind a space each, and a parenthesis closes the list.
-/

/-- Some texts, each behind a space. -/
def spaced (texts : List (List Char)) : List Char := texts.flatMap (' ' :: ·)

theorem spaced_cons (text : List Char) (later : List (List Char)) :
    spaced (text :: later) = ' ' :: (text ++ spaced later) := rfl

theorem ended_spaced (texts : List (List Char)) (rest : List Char) :
    Ended isWordChar (spaced texts ++ ')' :: rest) := by
  cases texts with
  | nil => exact ended_closing rest
  | cons first later => exact ended_space _

/-- Lists are told apart if their items are. -/
theorem spaced_tells_apart {α β : Type} {write : α → List Char} {forget : α → β}
    {ones twos : List α}
    (each : ∀ one ∈ ones, ∀ two ∈ twos, TellsApart write forget one two) {rest others : List Char}
    (same : spaced (ones.map write) ++ ')' :: rest = spaced (twos.map write) ++ ')' :: others) :
    ones.map forget = twos.map forget ∧ rest = others := by
  induction ones generalizing twos with
  | nil =>
      cases twos with
      | nil => exact ⟨rfl, (List.cons.inj same).2⟩
      | cons two twos => exact absurd (List.cons.inj same).1 (by decide)
  | cons one ones ih =>
      cases twos with
      | nil => exact absurd (List.cons.inj same).1 (by decide)
      | cons two twos =>
          rw [List.map_cons, List.map_cons, spaced_cons, spaced_cons, List.cons_append,
            List.cons_append, List.append_assoc, List.append_assoc] at same
          have behind := (List.cons.inj same).2
          have apart := each one List.mem_cons_self two List.mem_cons_self
          obtain ⟨sameItem, sameLater⟩ :=
            apart _ _ (ended_spaced _ rest) (ended_spaced _ others) behind
          obtain ⟨sameItems, sameRest⟩ := ih (fun other isLater another isLaterToo =>
            each other (List.mem_cons_of_mem _ isLater) another (List.mem_cons_of_mem _ isLaterToo))
            sameLater
          exact ⟨by rw [List.map_cons, List.map_cons, sameItem, sameItems], sameRest⟩

/-- Texts with one space between neighbours are a first text and some with a space in front. -/
theorem intercalate_cons (text : List Char) (later : List (List Char)) :
    [' '].intercalate (text :: later) = text ++ spaced later := by
  induction later generalizing text with
  | nil => simp [List.intercalate, spaced]
  | cons next later ih =>
      rw [List.intercalate_cons_cons, ih, spaced_cons]
      simp

/-- Lists of names and types are told apart. -/
theorem words_tell_apart {ones twos : List Token} (words : ∀ one ∈ ones, one.IsWord)
    (others : ∀ two ∈ twos, two.IsWord) {rest otherRest : List Char}
    (same : [' '].intercalate (ones.map (·.text.toList)) ++ ')' :: rest =
      [' '].intercalate (twos.map (·.text.toList)) ++ ')' :: otherRest) :
    ones.map Token.unplaced = twos.map Token.unplaced ∧ rest = otherRest := by
  -- No word starts like the end of a list.
  have differs : ∀ token : Token, token.IsWord → ∀ texts rest otherRest,
      token.text.toList ++ (spaced texts ++ ')' :: rest) ≠ ')' :: otherRest := by
    intro token word texts rest otherRest
    rw [← word.spelling_eq]
    exact word.isWhole.ne_parenthesis (.inr rfl) (ended_spaced texts rest)
  cases ones with
  | nil =>
      cases twos with
      | nil => exact ⟨rfl, (List.cons.inj same).2⟩
      | cons two twos =>
          rw [List.map_cons, intercalate_cons, List.append_assoc] at same
          exact absurd same.symm (differs two (others two List.mem_cons_self) _ _ _)
  | cons one ones =>
      rw [List.forall_mem_cons] at words
      rw [List.map_cons, intercalate_cons, List.append_assoc] at same
      cases twos with
      | nil => exact absurd same (differs one words.1 _ _ _)
      | cons two twos =>
          rw [List.forall_mem_cons] at others
          rw [List.map_cons, intercalate_cons, List.append_assoc] at same
          obtain ⟨sameFirst, same⟩ := words.1.tellsApart others.1 _ _ (ended_spaced _ rest)
            (ended_spaced _ otherRest) same
          obtain ⟨sameLater, sameRest⟩ := spaced_tells_apart (fun one isWord two isOther =>
            (words.2 one isWord).tellsApart (others.2 two isOther)) same
          exact ⟨by rw [List.map_cons, List.map_cons, sameFirst, sameLater], sameRest⟩

/-!
### Trees that can be read

The word that stands in front of the parts of a tree says what kind of tree it is.
-/

/-- An operator is neither a name nor written between quotes. -/
theorem Kind.ne_of_isOperator {kind : Kind}
    (isOperator : kind.isArithmetic = true ∨ kind = .assign) :
    kind ≠ .identifier ∧ kind ≠ .string ∧ kind ≠ .character := by
  refine ⟨?_, ?_, ?_⟩ <;> rintro rfl <;> exact absurd isOperator (by decide)

namespace Node

/-- The trees whose symbolic expressions can be read: their tokens can be written down and do not
run into each other. -/
inductive Legible : Node → Prop where
  | leaf {token : Token} (whole : token.IsWhole) : Legible (.leaf token)
  | call {callee : Token} {arguments : List Node} (word : callee.IsWord)
      (each : ∀ argument ∈ arguments, Legible argument) : Legible (.call callee arguments)
  | operation {operator : Token} {left right : Node} (lexable : operator.Lexable)
      (isOperator : operator.kind.isArithmetic = true ∨ operator.kind = .assign)
      (first : Legible left) (second : Legible right) : Legible (.operation operator left right)
  | variableDeclaration {name type : Token} (typeWord : type.IsWord) (nameWord : name.IsWord) :
      Legible (.variableDeclaration name type)
  | functionDeclaration {name type : Token} {parameters : List Token} (typeWord : type.IsWord)
      (nameWord : name.IsWord) (each : ∀ parameter ∈ parameters, parameter.IsWord) :
      Legible (.functionDeclaration name type parameters)

mutual

theorem IsFactor.legible {node : Node} : node.IsFactor → node.Legible
  | .leaf lexable isOperand => .leaf (.of_operand lexable isOperand)
  | .call isName lexable each =>
      .call ⟨lexable, .inl isName⟩ fun argument member => (each argument member).legible

theorem IsArithmetic.legible {node : Node} : node.IsArithmetic → node.Legible
  | .factor alone => alone.legible
  | .operation first isOperator lexable second =>
      .operation lexable (.inl isOperator) first.legible second.legible

end

theorem IsAssignment.legible {node : Node} (assignment : node.IsAssignment) : node.Legible := by
  induction assignment with
  | single isName nameLexable assigns lexable second =>
      exact .operation lexable (.inr assigns) (.leaf (.of_operand nameLexable (.inr isName)))
        second.legible
  | more first assigns lexable second ih =>
      exact .operation lexable (.inr assigns) ih second.legible

/-- What can be written down as source text can be read as a symbolic expression. -/
theorem IsCanonical.legible {node : Node} (canonical : node.IsCanonical) : node.Legible := by
  cases canonical with
  | variableDeclaration isType typeLexable isName nameLexable =>
      exact .variableDeclaration ⟨typeLexable, .inr isType⟩ ⟨nameLexable, .inl isName⟩
  | functionDeclaration isType typeLexable isName nameLexable typed lexable =>
      refine .functionDeclaration ⟨typeLexable, .inr isType⟩ ⟨nameLexable, .inl isName⟩ ?_
      intro parameter member
      refine ⟨lexable parameter member, .inr ?_⟩
      rcases typed parameter member with kind | kind <;> rw [kind] <;> rfl
  | assignment assignment => exact assignment.legible
  | call isName lexable each =>
      exact .call ⟨lexable, .inl isName⟩ fun argument member => (each argument member).legible

/-- What stands in front of the parts of a tree. -/
inductive Front where
  | leaf
  | call
  | operation (operator : Token)
  | variableDeclaration
  | functionDeclaration
  | block

/-- A word in front of some parts announces what they are.  Whatever is none of three fixed words is
an operator. -/
def Front.ofWord (word : Token) : Front :=
  if word = .identifier "call" then call
  else if word = .identifier "var" then variableDeclaration
  else if word = .identifier "fn" then functionDeclaration
  else operation word

/-- What a tree has in front of its parts, wherever its tokens come from. -/
def front : Node → Front
  | leaf _ => .leaf
  | callNamed .. => .call
  | operation operator _ _ => .operation operator.unplaced
  | variableDeclaration .. => .variableDeclaration
  | functionDeclaration .. => .functionDeclaration
  | block .. => .block

/-- What a tree has behind its front, with the closing parenthesis. -/
def parts : Node → List Char
  | leaf token => token.spelling.toList
  | callNamed name arguments =>
    name.text.toList ++ (spaced (arguments.map (·.dump.toList)) ++ [')'])
  | operation _ left right => left.dump.toList ++ ' ' :: (right.dump.toList ++ [')'])
  | variableDeclaration name type => type.text.toList ++ ' ' :: (name.text.toList ++ [')'])
  | functionDeclaration name type parameters =>
    type.text.toList ++ ' ' :: (name.text.toList ++ ' ' :: '(' ::
      ([' '].intercalate (parameters.map (·.text.toList)) ++ [')', ')']))
  | block _ statements => (dumpEach statements).toList ++ [')']

theorem dumpEach_eq_spaced (nodes : List Node) :
    (dumpEach nodes).toList = spaced (nodes.map (·.dump.toList)) := by
  induction nodes with
  | nil => rfl
  | cons node nodes ih =>
      rw [dumpEach, List.map_cons, spaced_cons, ← ih]
      simp

/-- A tree is a leaf, or a word in parentheses says what its parts are. -/
theorem Legible.leaf_or_word {node : Node} (legible : node.Legible) :
    (∃ token, node = .leaf token ∧ token.IsWhole) ∨ ∃ word : Token, word.Lexable ∧
      Front.ofWord word.unplaced = node.front ∧
        node.dump.toList = '(' :: (word.spelling.toList ++ ' ' :: node.parts) := by
  cases legible with
  | leaf whole => exact .inl ⟨_, rfl, whole⟩
  | call word each =>
      refine .inr ⟨.identifier "call", .identifier (by decide) (by decide) _, rfl, ?_⟩
      have spelled : (Token.identifier "call").spelling = "call" := rfl
      rw [Node.call, dump, parts, spelled, ← dumpEach_eq_spaced]
      simp
  | @operation operator left right lexable isOperator first second =>
      obtain ⟨noName, noString, noCharacter⟩ := Kind.ne_of_isOperator isOperator
      refine .inr ⟨operator, lexable, ?_, ?_⟩
      · have noWord : ∀ name, operator.unplaced ≠ .identifier name :=
          fun name same => noName (congrArg Token.kind same)
        rw [Front.ofWord, if_neg (noWord _), if_neg (noWord _), if_neg (noWord _), front]
      · have spelled := Token.spelling_of_bare noString noCharacter
        rw [dump, parts, spelled]
        simp
  | variableDeclaration typeWord nameWord =>
      refine .inr ⟨.identifier "var", .identifier (by decide) (by decide) _, rfl, ?_⟩
      have spelled : (Token.identifier "var").spelling = "var" := rfl
      rw [dump, parts, spelled]
      simp
  | functionDeclaration typeWord nameWord each =>
      refine .inr ⟨.identifier "fn", .identifier (by decide) (by decide) _, rfl, ?_⟩
      have spelled : (Token.identifier "fn").spelling = "fn" := rfl
      rw [dump, parts, spelled]
      simp [String.toList_intercalate, Function.comp_def]

/-- Trees with the same text at the front have the same front, and their parts start at the same
place. -/
theorem Legible.front_eq {one two : Node} (legible : one.Legible) (other : two.Legible)
    {rest others : List Char} (ended : Ended isWordChar rest) (endedOther : Ended isWordChar others)
    (same : one.dump.toList ++ rest = two.dump.toList ++ others) :
    one.front = two.front ∧ one.parts ++ rest = two.parts ++ others := by
  rcases legible.leaf_or_word with ⟨token, rfl, whole⟩ | ⟨word, lexable, front, shape⟩
  · rcases other.leaf_or_word with ⟨token, rfl, -⟩ | ⟨word, -, -, shape⟩
    · exact ⟨rfl, same⟩
    · rw [shape, dump] at same
      exact absurd same (whole.ne_parenthesis (.inl rfl) ended)
  · rcases other.leaf_or_word with
      ⟨token, rfl, whole⟩ | ⟨wordOther, lexableOther, frontOther, shapeOther⟩
    · rw [shape, dump] at same
      exact absurd same.symm (whole.ne_parenthesis (.inl rfl) endedOther)
    · rw [shape, shapeOther, List.cons_append, List.cons_append, List.append_assoc,
        List.append_assoc] at same
      obtain ⟨sameWord, sameParts⟩ := Token.unplaced_eq_of_reads (lexable.reads_space _)
        (lexableOther.reads_space _) (List.cons.inj same).2
      rw [← front, ← frontOther, sameWord]
      exact ⟨rfl, (List.cons.inj sameParts).2⟩

/-- Trees are told apart if their parts are, where they have the same front. -/
theorem Legible.tellsApart_of_parts {one two : Node} (legible : one.Legible) (other : two.Legible)
    (apart : one.front = two.front → TellsApart parts unplaced one two) :
    TellsApart (·.dump.toList) unplaced one two := by
  intro rest others ended endedOther same
  obtain ⟨sameFront, sameParts⟩ := legible.front_eq other ended endedOther same
  exact apart sameFront rest others ended endedOther sameParts

/-- From the front of a text on it is clear which tree is written there and where it ends. -/
theorem Legible.tellsApart {one two : Node} (legible : one.Legible) (other : two.Legible) :
    TellsApart (·.dump.toList) unplaced one two := by
  induction legible generalizing two with
  | leaf whole =>
      refine (Legible.leaf whole).tellsApart_of_parts other fun sameFront => ?_
      cases other with
      | leaf wholeOther =>
          intro rest others ended endedOther same
          obtain ⟨sameToken, sameRest⟩ := whole.tellsApart wholeOther _ _ ended endedOther same
          exact ⟨congrArg Node.leaf sameToken, sameRest⟩
      | _ => cases sameFront
  | call word each ih =>
      refine (Legible.call word each).tellsApart_of_parts other fun sameFront => ?_
      cases other with
      | call wordOther eachOther =>
          intro rest others ended endedOther same
          simp only [Node.call, parts, List.append_assoc, List.singleton_append] at same
          obtain ⟨sameName, same⟩ := word.tellsApart wordOther _ _ (ended_spaced _ rest)
            (ended_spaced _ others) same
          obtain ⟨sameArguments, sameRest⟩ := spaced_tells_apart
            (fun one isArgument two isOther => ih one isArgument (eachOther two isOther)) same
          exact ⟨unplaced_call sameName sameArguments, sameRest⟩
      | _ => cases sameFront
  | operation lexable isOperator first second ihFirst ihSecond =>
      refine (Legible.operation lexable isOperator first second).tellsApart_of_parts other
        fun sameFront => ?_
      cases other with
      | operation lexableOther isOperatorOther firstOther secondOther =>
          intro rest others ended endedOther same
          simp only [parts, List.append_assoc, List.cons_append, List.nil_append] at same
          obtain ⟨sameLeft, same⟩ := ihFirst firstOther _ _ (ended_space _) (ended_space _) same
          obtain ⟨sameRight, same⟩ := ihSecond secondOther _ _ (ended_closing rest)
            (ended_closing others) (List.cons.inj same).2
          refine ⟨?_, (List.cons.inj same).2⟩
          rw [unplaced, unplaced, sameLeft, sameRight, Front.operation.inj sameFront]
      | _ => cases sameFront
  | variableDeclaration typeWord nameWord =>
      refine (Legible.variableDeclaration typeWord nameWord).tellsApart_of_parts other
        fun sameFront => ?_
      cases other with
      | variableDeclaration typeOther nameOther =>
          intro rest others ended endedOther same
          simp only [parts, List.append_assoc, List.cons_append, List.nil_append] at same
          obtain ⟨sameType, same⟩ :=
            typeWord.tellsApart typeOther _ _ (ended_space _) (ended_space _) same
          obtain ⟨sameName, same⟩ := nameWord.tellsApart nameOther _ _ (ended_closing rest)
            (ended_closing others) (List.cons.inj same).2
          refine ⟨?_, (List.cons.inj same).2⟩
          rw [unplaced, unplaced, sameType, sameName]
      | _ => cases sameFront
  | functionDeclaration typeWord nameWord each =>
      refine (Legible.functionDeclaration typeWord nameWord each).tellsApart_of_parts other
        fun sameFront => ?_
      cases other with
      | functionDeclaration typeOther nameOther eachOther =>
          intro rest others ended endedOther same
          simp only [parts, List.append_assoc, List.cons_append, List.nil_append] at same
          obtain ⟨sameType, same⟩ :=
            typeWord.tellsApart typeOther _ _ (ended_space _) (ended_space _) same
          obtain ⟨sameName, same⟩ := nameWord.tellsApart nameOther _ _ (ended_space _)
            (ended_space _) (List.cons.inj same).2
          -- What is left are the space, the parenthesis and the list that it opens.
          obtain ⟨sameTypes, same⟩ :=
            words_tell_apart each eachOther (List.cons.inj (List.cons.inj same).2).2
          refine ⟨?_, (List.cons.inj same).2⟩
          rw [unplaced, unplaced, sameType, sameName, sameTypes]
      | _ => cases sameFront

/-- Trees with the same symbolic expression are the same up to the places of their tokens. -/
theorem Legible.unplaced_eq_of_dump_eq {one two : Node} (legible : one.Legible)
    (other : two.Legible) (same : one.dump = two.dump) : one.unplaced = two.unplaced := by
  have behind : one.dump.toList ++ [' '] = two.dump.toList ++ [' '] := by rw [same]
  exact (legible.tellsApart other _ _ (ended_space []) (ended_space []) behind).1

/-!
### Lines of symbolic expressions

No token of a text goes over the end of a line, and neither does a symbolic expression.
-/

theorem sameLine_spaced {texts : List (List Char)} (each : ∀ text ∈ texts, '\n' ∉ text) :
    '\n' ∉ spaced texts := by
  intro member
  obtain ⟨text, known, inside⟩ := List.mem_flatMap.mp member
  rcases List.mem_cons.mp inside with same | inText
  · exact absurd same (by decide)
  · exact each text known inText

/-- The symbolic expression of a tree is in one line. -/
theorem Legible.sameLine {node : Node} (legible : node.Legible) : '\n' ∉ node.dump.toList := by
  induction legible with
  | leaf whole =>
      rw [dump]
      exact whole.lexable.spelling_sameLine.2
  | @call callee arguments word each ih =>
      have cleanName : '\n' ∉ ({ callee with kind := .call } : Token).text.toList := word.sameLine
      have cleanArguments : '\n' ∉ spaced (arguments.map (·.dump.toList)) :=
        sameLine_spaced (List.forall_mem_map.mpr ih)
      rw [Node.call, dump]
      simp [dumpEach_eq_spaced, cleanName, cleanArguments]
  | @operation operator left right lexable isOperator first second ihFirst ihSecond =>
      obtain ⟨-, noString, noCharacter⟩ := Kind.ne_of_isOperator isOperator
      have cleanOperator : '\n' ∉ operator.text.toList := by
        rw [← Token.spelling_of_bare noString noCharacter]
        exact lexable.spelling_sameLine.2
      rw [dump]
      simp [cleanOperator, ihFirst, ihSecond]
  | variableDeclaration typeWord nameWord =>
      rw [dump]
      simp [typeWord.sameLine, nameWord.sameLine]
  | @functionDeclaration name type parameters typeWord nameWord each =>
      have cleanTypes : '\n' ∉ [' '].intercalate (parameters.map (·.text.toList)) := by
        cases parameters with
        | nil => exact List.not_mem_nil
        | cons first later =>
            rw [List.forall_mem_cons] at each
            rw [List.map_cons, intercalate_cons, List.mem_append, not_or]
            have cleanLater : ∀ text ∈ later.map (·.text.toList), '\n' ∉ text :=
              List.forall_mem_map.mpr fun parameter member => (each.2 parameter member).sameLine
            exact ⟨each.1.sameLine, sameLine_spaced cleanLater⟩
      rw [dump]
      simp [String.toList_intercalate, Function.comp_def, typeWord.sameLine, nameWord.sameLine,
        cleanTypes]

end Node

theorem toList_treeListing_cons (node : Node) (nodes : List Node) :
    (treeListing (node :: nodes)).toList =
      node.dump.toList ++ '\n' :: (treeListing nodes).toList := by
  simp [treeListing]

/-- A listing of trees says which trees are listed. -/
theorem unplaced_eq_of_treeListing_eq {nodes trees : List Node}
    (legible : ∀ node ∈ nodes, node.Legible) (other : ∀ tree ∈ trees, tree.Legible)
    (same : treeListing nodes = treeListing trees) :
    nodes.map Node.unplaced = trees.map Node.unplaced := by
  have filled : ∀ node nodes, treeListing [] ≠ treeListing (node :: nodes) := by
    intro node nodes same
    have texts := congrArg String.toList same
    rw [toList_treeListing_cons] at texts
    simp [treeListing] at texts
  induction nodes generalizing trees with
  | nil =>
      cases trees with
      | nil => rfl
      | cons tree trees => exact absurd same (filled tree trees)
  | cons node nodes ih =>
      cases trees with
      | nil => exact absurd same.symm (filled node nodes)
      | cons tree trees =>
          rw [List.forall_mem_cons] at legible other
          have texts := congrArg String.toList same
          rw [toList_treeListing_cons, toList_treeListing_cons] at texts
          have ended : ∀ rest, Ended isWordChar ('\n' :: rest) :=
            fun rest => ⟨'\n', rest, rfl, by decide⟩
          obtain ⟨sameNode, sameLater⟩ :=
            legible.1.tellsApart other.1 _ _ (ended _) (ended _) texts
          have sameNodes :=
            ih legible.2 other.2 (String.toList_injective (List.cons.inj sameLater).2)
          rw [List.map_cons, List.map_cons, sameNode, sameNodes]

/-- Nothing is lost when the trees of a text are listed.  Each takes one line, and two texts with
the same listing have the same trees, one by one, up to the places of their tokens. -/
theorem treeListing_tells_apart {source other : String} {tokens otherTokens : List Token}
    {nodes trees : List Node} (read : lex source = .ok tokens)
    (parsed : parseProgram tokens = .ok nodes) (readOther : lex other = .ok otherTokens)
    (parsedOther : parseProgram otherTokens = .ok trees) :
    (∀ node ∈ nodes, '\n' ∉ node.dump.toList) ∧
    (treeListing nodes = treeListing trees →
      nodes.length = trees.length ∧ (nodes == trees) = true) ∧
    (∀ node ∈ nodes, ∀ tree ∈ trees, node.dump = tree.dump → (node == tree) = true) := by
  have legible : ∀ node ∈ nodes, node.Legible := fun node member =>
    (isCanonical_of_parseProgram read parsed node member).legible
  have legibleOther : ∀ tree ∈ trees, tree.Legible := fun tree member =>
    (isCanonical_of_parseProgram readOther parsedOther tree member).legible
  refine ⟨fun node member => (legible node member).sameLine, fun same => ?_, ?_⟩
  · have sameTrees := unplaced_eq_of_treeListing_eq legible legibleOther same
    constructor
    · rw [← List.length_map Node.unplaced, sameTrees, List.length_map]
    · exact Node.beq_iff_map_unplaced_eq.mpr sameTrees
  · intro node member tree memberOther same
    exact (Node.alike_iff_unplaced_eq node tree).mpr
      ((legible node member).unplaced_eq_of_dump_eq (legibleOther tree memberOther) same)

theorem treeListing_tells_apart_call :
    let nodes := [Node.call ⟨.identifier, .text "f", ⟨1, 1⟩⟩
      [.leaf ⟨.string, .text "(y) z", ⟨1, 3⟩⟩]]
    let trees := [Node.call ⟨.identifier, .text "f", ⟨2, 2⟩⟩
      [.leaf ⟨.string, .text "(y) z", ⟨2, 6⟩⟩]]
    treeListing nodes = treeListing trees ∧
      (∀ node ∈ nodes, '\n' ∉ node.dump.toList) ∧
      (treeListing nodes = treeListing trees →
        nodes.length = trees.length ∧ (nodes == trees) = true) ∧
      (∀ node ∈ nodes, ∀ tree ∈ trees, node.dump = tree.dump → (node == tree) = true) := by
  intro nodes trees
  have read : lex "f(\"(y) z\");" = .ok [⟨.identifier, .text "f", ⟨1, 1⟩⟩,
      ⟨.leftParen, .text "(", ⟨1, 2⟩⟩, ⟨.string, .text "(y) z", ⟨1, 3⟩⟩,
      ⟨.rightParen, .text ")", ⟨1, 10⟩⟩, ⟨.semicolon, .text ";", ⟨1, 11⟩⟩] := rfl
  have readOther : lex "\n f ( \"(y) z\",);" = .ok [⟨.identifier, .text "f", ⟨2, 2⟩⟩,
      ⟨.leftParen, .text "(", ⟨2, 4⟩⟩, ⟨.string, .text "(y) z", ⟨2, 6⟩⟩,
      ⟨.comma, .text ",", ⟨2, 13⟩⟩, ⟨.rightParen, .text ")", ⟨2, 14⟩⟩,
      ⟨.semicolon, .text ";", ⟨2, 15⟩⟩] := rfl
  refine ⟨rfl, treeListing_tells_apart read ?_ readOther ?_⟩
  · exact (Cursor.program_eq_ok_iff _ _).mpr ⟨rfl, .cons rfl .nil⟩
  · exact (Cursor.program_eq_ok_iff _ _).mpr ⟨rfl, .cons rfl .nil⟩

end CLike
