/-
Module: CLike.Proofs.StatementLanguage
Layer: Proofs
Purpose: A statement is read exactly when the tokens up to the first semicolon have one of the four
  forms of the grammar, and as the tree that they spell.
Main exports: Grammar.Separated.parameters, Cursor.parameters_sound, Cursor.asStatement_sound,
  Cursor.declaration_opening, Cursor.statement_complete, Cursor.statement_sound,
  Cursor.statement_language
-/
import CLike.Proofs.Nesting
import CLike.Proofs.PhraseReading
import CLike.Proofs.Segmentation

namespace CLike

open Grammar

/-!
### Parameters

The loop over parameters holds the flag of the grammar in its hands, so both directions go along the
derivation, which grows at its end.
-/

theorem Reply.map_nil_append {α : Type} (reply : Reply (List α)) :
    reply.map (([] : List α) ++ ·) = reply := by
  rcases reply with ⟨outcome, cursor⟩
  cases outcome with
  | error cause => rfl
  | ok items => rfl

theorem Reply.map_append_append {α : Type} (reply : Reply (List α)) (first second : List α) :
    (reply.map (second ++ ·)).map (first ++ ·) = reply.map (first ++ second ++ ·) := by
  rcases reply with ⟨outcome, cursor⟩
  cases outcome with
  | error cause => rfl
  | ok items => simp [Reply.map, Except.map]

namespace Cursor

theorem parameters_comma {position bound : Nat} {mark : Token} {rest : List Token}
    (expecting : Bool) (inSight : position < bound) (isComma : mark.kind = .comma) :
    (⟨position, mark :: rest, bound⟩ : Cursor).parameters expecting =
      (⟨position + 1, rest, bound⟩ : Cursor).parameters true := by
  have seen : (⟨position, mark :: rest, bound⟩ : Cursor).peek? = some mark :=
    peek?_eq_some_iff.mpr ⟨inSight, rest, rfl⟩
  have notClosing : mark.kind ≠ .rightParen := by
    rw [isComma]
    decide
  rw [parameters_eq, seen]
  simp only [if_neg notClosing, if_pos isComma]
  rfl

/-- A parameter takes its name along, so behind one without a name there must not be a name. -/
theorem parameters_item {position bound : Nat} {tokens rest : List Token} {type : Token}
    (parameter : Parameter tokens type) (inSight : position + tokens.length ≤ bound)
    (nameless : ∀ token ∈ rest.head?, token.kind ≠ .identifier) :
    (⟨position, tokens ++ rest, bound⟩ : Cursor).parameters true =
      ((⟨position + tokens.length, rest, bound⟩ : Cursor).parameters false).map ([type] ++ ·) := by
  have typed := parameter.typed
  have notClosing : type.kind ≠ .rightParen := by
    rcases typed with kind | kind <;> rw [kind] <;> decide
  have notComma : type.kind ≠ .comma := by
    rcases typed with kind | kind <;> rw [kind] <;> decide
  have first : ∀ more, position < bound →
      (⟨position, type :: more, bound⟩ : Cursor).parameters true =
        (((⟨position + 1, more, bound⟩ : Cursor).skip .identifier).parameters false).map
          ([type] ++ ·) := by
    intro more inSight
    have seen : (⟨position, type :: more, bound⟩ : Cursor).peek? = some type :=
      peek?_eq_some_iff.mpr ⟨inSight, more, rfl⟩
    rw [parameters_eq, seen]
    simp only [if_neg notClosing, if_neg notComma, if_pos typed]
    rfl
  cases parameter with
  | unnamed =>
      have unskipped : (⟨position + 1, rest, bound⟩ : Cursor).skip .identifier =
          ⟨position + 1, rest, bound⟩ := skip_of_absent nameless
      rw [List.singleton_append, first rest inSight, unskipped]
      rfl
  | @named _ name _ isName =>
      have skipped : (⟨position + 1, name :: rest, bound⟩ : Cursor).skip .identifier =
          ⟨position + 2, rest, bound⟩ := skip_of_present inSight rfl isName
      rw [List.cons_append, List.singleton_append, first (name :: rest) (Nat.lt_of_succ_lt inSight),
        skipped]
      rfl

end Cursor

/-- The loop over parameters reads what the grammar derives. -/
theorem Grammar.Separated.parameters {fresh : Bool} {tokens types : List Token}
    (derived : Separated Parameter fresh tokens types) {position bound : Nat} {rest : List Token}
    (inSight : position + tokens.length ≤ bound)
    (nameless : ∀ token ∈ rest.head?, token.kind ≠ .identifier) :
    (⟨position, tokens ++ rest, bound⟩ : Cursor).parameters true =
      ((⟨position + tokens.length, rest, bound⟩ : Cursor).parameters fresh).map (types ++ ·) := by
  induction derived generalizing rest with
  | nil => rw [Reply.map_nil_append, List.nil_append, List.length_nil, Nat.add_zero]
  | @comma fresh tokens types mark _ isComma ih =>
      rw [List.length_append, List.length_singleton] at inSight ⊢
      rw [List.append_assoc, List.singleton_append, ih (by omega)]
      · rw [Cursor.parameters_comma fresh (by omega) isComma, Nat.add_assoc]
      · rintro token same
        rw [← Option.some.inj same, isComma]
        decide
  | @item tokens more types type _ next ih =>
      rw [List.length_append] at inSight ⊢
      rw [List.append_assoc, ih (by omega)]
      · rw [Cursor.parameters_item next (by omega) nameless, Reply.map_append_append,
          Nat.add_assoc]
      · intro token same
        rcases next.exists_head with ⟨behind, rfl⟩
        rw [← Option.some.inj same]
        rcases next.typed with kind | kind <;> rw [kind] <;> decide

/-- Up to the closing parenthesis, the loop over parameters reads what the grammar derives. -/
theorem Cursor.parameters_complete {fresh : Bool} {tokens types rest : List Token} {closing : Token}
    (inside : Separated Parameter fresh tokens types) (closes : closing.kind = .rightParen)
    {position bound : Nat} (inSight : position + tokens.length < bound) :
    (⟨position, tokens ++ closing :: rest, bound⟩ : Cursor).parameters true =
      ⟨.ok types, ⟨position + tokens.length + 1, rest, bound⟩⟩ := by
  have nameless : ∀ token ∈ (closing :: rest).head?, token.kind ≠ .identifier := by
    intro token same
    rw [← Option.some.inj same]
    exact ne_of_eq_of_ne closes (by decide)
  have seen : (⟨position + tokens.length, closing :: rest, bound⟩ : Cursor).peek? =
      some closing :=
    peek?_eq_some_iff.mpr ⟨inSight, rest, rfl⟩
  rw [inside.parameters (Nat.le_of_lt inSight) nameless, parameters_eq, seen]
  simp [closes, advance, Reply.map, Except.map]

/-- A parameter is a type and the name behind it, if there is one. -/
theorem Cursor.exists_parameter {cursor : Cursor} {type : Token} {rest : List Token}
    (shape : cursor.rest = type :: rest) (typed : type.kind = .intType ∨ type.kind = .charType) :
    ∃ tokens, Parameter tokens type ∧
      cursor.rest = tokens ++ (cursor.advance.skip .identifier).rest := by
  have behindType : cursor.advance.rest = rest := by rw [advance_cons shape]
  rcases skip_cases .identifier cursor.advance with same | ⟨name, isName, shapeName⟩
  · refine ⟨[type], .unnamed typed, ?_⟩
    rw [same, behindType, shape]
    rfl
  · refine ⟨[type, name], .named typed isName, ?_⟩
    rw [shape, ← behindType, shapeName]
    rfl

/-- What the loop over parameters reads, behind items that have already been read, ends in a closing
parenthesis and has a derivation before it. -/
theorem Cursor.parameters_sound {expecting : Bool} {cursor : Cursor} {types : List Token}
    (read : (cursor.parameters expecting).outcome = .ok types) {before earlier : List Token}
    (derived : Separated Parameter expecting before earlier) :
    ∃ taken closing fresh,
      cursor.rest = taken ++ closing :: (cursor.parameters expecting).cursor.rest ∧
        closing.kind = .rightParen ∧
        Separated Parameter fresh (before ++ taken) (earlier ++ types) := by
  fun_induction parameters expecting cursor generalizing types before earlier with
  | case1 => cases read
  | case2 expecting cursor token seen closes =>
      rcases peek?_eq_some_iff.mp seen with ⟨-, rest, shape⟩
      obtain rfl := Except.ok.inj read
      refine ⟨[], token, expecting, ?_, closes, ?_⟩
      · rw [advance_cons shape, shape]
        rfl
      · rw [List.append_nil, List.append_nil]
        exact derived
  | case3 expecting cursor token seen _ isComma ih =>
      rcases peek?_eq_some_iff.mp seen with ⟨-, rest, shape⟩
      obtain ⟨taken, closing, fresh, restEq, closes, whole⟩ := ih read (derived.comma isComma)
      refine ⟨token :: taken, closing, fresh, ?_, closes, ?_⟩
      · rw [List.cons_append, ← restEq, advance_cons shape, shape]
      · rwa [List.append_assoc, List.singleton_append] at whole
  | case4 => cases read
  | case5 expecting cursor token seen _ _ expected typed ih =>
      rcases peek?_eq_some_iff.mp seen with ⟨-, rest, shape⟩
      rcases Reply.outcome_map_eq_ok_iff.mp read with ⟨later, readLater, rfl⟩
      have fresh : expecting = true := by simpa using expected
      subst fresh
      rcases exists_parameter shape typed with ⟨more, parameter, taken⟩
      obtain ⟨behind, closing, fresh, restEq, closes, whole⟩ :=
        ih readLater (derived.item parameter)
      refine ⟨more ++ behind, closing, fresh, ?_, closes, ?_⟩
      · rw [List.append_assoc, taken]
        exact congrArg (more ++ ·) restEq
      · rwa [List.append_assoc, List.append_assoc] at whole
  | case6 => cases read

/-!
### The left side of an assignment

The check looks at the tokens before the first `=` once more.  Behind an expression it can be brief:
arithmetic does not start with a type, so of the left sides it accepts the single names only.
-/

theorem takeWhile_assign {first rest : List Token} {operator : Token}
    (clean : ∀ token ∈ first, token.kind ≠ .assign) (assigns : operator.kind = .assign) :
    (first ++ operator :: rest).takeWhile (·.kind ≠ .assign) = first := by
  rw [List.takeWhile_append_of_pos (by simpa using clean), List.takeWhile_cons_of_neg (by simpa)]
  exact List.append_nil _

namespace Grammar

theorem Assignment.check {tokens : List Token} {node : Node}
    (assignment : Assignment tokens node) : checkAssignment tokens = .ok () := by
  rcases assignment.exists_head with ⟨name, operator, rest, rfl, isName, assigns⟩
  have before : (name :: operator :: rest).takeWhile (·.kind ≠ .assign) = [name] := by
    have clean : ∀ token ∈ [name], token.kind ≠ .assign :=
      List.forall_mem_singleton.mpr (ne_of_eq_of_ne isName (by decide))
    exact takeWhile_assign clean assigns
  rw [checkAssignment, before]
  simp [isName]

/-- With `=` at its root, an expression is judged by its first two tokens alone: where a name and an
`=` come first, it is an assignment. -/
theorem Expression.checkAssignment_eq {tokens : List Token} {node : Node}
    (expression : Expression tokens node) (assigns : node.token.kind = .assign) :
    ∃ head second rest, tokens = head :: second :: rest ∧ head.kind.isType = false ∧
      (head.kind = .identifier → second.kind = .assign → Assignment tokens node) ∧
      checkAssignment tokens =
        if second.kind = .assign then
          if head.kind = .identifier then .ok () else .error .badAssignment
        else .error .definitionWithoutType := by
  obtain ⟨first, leftmost, operator, rest, rfl, arithmetic, assignsFirst, isAssignment⟩ :=
    expression.exists_assign assigns
  have clean : ∀ token ∈ first, token.kind ≠ .assign := fun token member =>
    Kind.ne_of_member (arithmetic.isPhrase token member) rfl
  rw [checkAssignment, takeWhile_assign clean assignsFirst]
  rcases arithmetic.exists_head with ⟨head, more, rfl, starts⟩
  have noType : head.kind.isType = false := by
    rcases starts with (kind | kind | kind) | kind <;> rw [kind] <;> rfl
  cases more with
  | nil =>
      refine ⟨head, operator, rest, rfl, noType, fun isName _ => isAssignment head rfl isName, ?_⟩
      by_cases isName : head.kind = .identifier
      · simp [assignsFirst, isName]
      · simp [assignsFirst, isName]
  | cons second more =>
      have noAssign : second.kind ≠ .assign := clean second (by simp)
      refine ⟨head, second, more ++ operator :: rest, rfl, noType, ?_, ?_⟩
      · exact fun _ isAssign => absurd isAssign noAssign
      · simp [noType, noAssign]

theorem Expression.assignment_of_check {tokens : List Token} {node : Node}
    (expression : Expression tokens node) (assigns : node.token.kind = .assign)
    (checked : checkAssignment tokens = .ok ()) : Assignment tokens node := by
  obtain ⟨head, second, rest, -, -, isAssignment, judged⟩ := expression.checkAssignment_eq assigns
  rw [judged] at checked
  split at checked
  · next isAssign =>
      split at checked
      · next isName => exact isAssignment isName isAssign
      · cases checked
  · cases checked

end Grammar

namespace Cursor

theorem asStatement_of_assignment {tokens : List Token} {node : Node}
    (assignment : Assignment tokens node) : asStatement tokens node = .ok node := by
  rw [asStatement, if_pos assignment.token_eq_assign, assignment.check]
  rfl

theorem asStatement_call (tokens : List Token) (name : Token) (arguments : List Node) :
    asStatement tokens (.call name arguments) = .ok (.call name arguments) := rfl

/-- An expression that can stand as a statement, judged by the tokens that it was read from, is an
assignment or a call. -/
theorem asStatement_sound {tokens : List Token} {node statement : Node}
    (expression : Expression tokens node) (judged : asStatement tokens node = .ok statement) :
    Statement tokens statement := by
  unfold asStatement at judged
  split at judged
  · next assigns =>
      cases checked : checkAssignment tokens with
      | error cause =>
          rw [checked] at judged
          cases judged
      | ok _ =>
          rw [checked] at judged
          obtain rfl := Except.ok.inj judged
          exact .assignment (expression.assignment_of_check assigns checked)
  · split at judged
    · next isCall =>
        obtain rfl := Except.ok.inj judged
        exact expression.call isCall
    · cases judged

/-!
### The body of a statement

Its tokens fill the sight of the cursor.  For a declaration that matters twice, since a parenthesis
anywhere in sight makes it one of a function, and the name is looked up without regard to the sight.
-/

theorem declaration_variable {cursor : Cursor} {type name : Token} {rest : List Token}
    (isType : type.kind.isType = true) (isName : name.kind = .identifier)
    (shape : cursor.rest = type :: name :: rest) (fills : cursor.position + 2 = cursor.bound) :
    cursor.declaration type =
      ⟨.ok (.variableDeclaration name type), ⟨cursor.bound, rest, cursor.bound⟩⟩ := by
  have notOpening : type.kind ≠ .leftParen := by
    intro same
    rw [same] at isType
    cases isType
  have noParen : cursor.visible.any (·.kind == .leftParen) = false := by
    simp [visible, ← fills, shape, isName, notOpening]
  have behindType := advance_cons shape
  have behindName : cursor.advance.advance = ⟨cursor.bound, rest, cursor.bound⟩ := by
    rw [behindType, ← fills]
    rfl
  have named : cursor.advance.rest.head? = some name := by
    rw [behindType]
    rfl
  unfold declaration
  rw [named, noParen, behindName]
  simp [isName]

/-- With a parenthesis right behind the name, the parameters are read from there on. -/
theorem declaration_opening {cursor : Cursor} {type name opening : Token} {more : List Token}
    (isName : name.kind = .identifier) (opens : opening.kind = .leftParen)
    (shape : cursor.rest = type :: name :: opening :: more)
    (inSight : cursor.position + 2 < cursor.bound) :
    cursor.declaration type =
      ((⟨cursor.position + 3, more, cursor.bound⟩ : Cursor).parameters true).map
        (.functionDeclaration name type ·) := by
  have behindType := advance_cons shape
  have behindName : cursor.advance.advance =
      ⟨cursor.position + 2, opening :: more, cursor.bound⟩ := by
    rw [behindType]
    rfl
  have named : cursor.advance.rest.head? = some name := by
    rw [behindType]
    rfl
  have seen : cursor.advance.advance.peek? = some opening := by
    rw [behindName]
    exact peek?_eq_some_iff.mpr ⟨inSight, more, rfl⟩
  have paren : cursor.visible.any (·.kind == .leftParen) = true := by
    obtain ⟨distance, within⟩ := Nat.exists_eq_add_of_lt inSight
    have wide : cursor.bound - cursor.position = distance + 3 := by omega
    simp [visible, shape, wide, opens]
  have behindOpening : cursor.advance.advance.advance =
      ⟨cursor.position + 3, more, cursor.bound⟩ := by
    rw [behindName]
    rfl
  unfold declaration functionDeclaration
  rw [named, paren, seen, behindOpening]
  simp [isName, opens]

theorem declaration_function {cursor : Cursor} {type name opening closing : Token} {fresh : Bool}
    {tokens types rest : List Token} (isName : name.kind = .identifier)
    (opens : opening.kind = .leftParen) (inside : Separated Parameter fresh tokens types)
    (closes : closing.kind = .rightParen)
    (shape : cursor.rest = type :: name :: opening :: (tokens ++ [closing] ++ rest))
    (fills : cursor.position + (tokens.length + 4) = cursor.bound) :
    cursor.declaration type =
      ⟨.ok (.functionDeclaration name type types), ⟨cursor.bound, rest, cursor.bound⟩⟩ := by
  have reached : cursor.position + 3 + tokens.length + 1 = cursor.bound := by omega
  rw [← List.append_cons] at shape
  rw [declaration_opening isName opens shape (by omega),
    parameters_complete inside closes (by omega), reached]
  rfl

/-- Where no type comes first, a statement is read as an expression. -/
theorem statementBody_untyped {cursor : Cursor}
    (untyped : ∀ first, cursor.peek? = some first → first.kind.isType = false) :
    cursor.statementBody = cursor.expressionStatement := by
  unfold statementBody
  split
  · next token seen =>
      rw [untyped token seen]
      rfl
  · rfl

/-- A statement whose first token is no type is an expression before the semicolon. -/
theorem statement_of_untyped {cursor : Cursor}
    (untyped : ∀ first ∈ cursor.rest.head?, first.kind.isType = false) :
    let reply := (cursor.withBound cursor.semicolonIndex).expressionStatement
    cursor.statement = terminated ⟨reply.outcome, reply.cursor.withBound cursor.bound⟩ := by
  have unseen : ∀ first, (cursor.withBound cursor.semicolonIndex).peek? = some first →
      first.kind.isType = false := by
    intro first seen
    obtain ⟨-, rest, shape⟩ := peek?_eq_some_iff.mp seen
    exact untyped first (congrArg List.head? shape)
  rw [statement, statementBody_untyped unseen]

/-- An expression in sight of which no type comes first is read by itself and judged. -/
theorem statementBody_of_expression {cursor : Cursor} {tokens rest : List Token} {node : Node}
    (expression : Expression tokens node) (stands : asStatement tokens node = .ok node)
    (noType : ∀ token ∈ tokens.head?, token.kind.isType = false)
    (shape : cursor.rest = tokens ++ rest)
    (fills : cursor.position + tokens.length = cursor.bound) :
    cursor.statementBody = ⟨.ok node, ⟨cursor.bound, rest, cursor.bound⟩⟩ := by
  have read := Phrase.expression_complete expression shape fills
  have span : cursor.rest.take (cursor.bound - cursor.position) = tokens := by
    rw [← fills, Nat.add_sub_cancel_left, shape, List.take_left]
  have untyped : ∀ first, cursor.peek? = some first → first.kind.isType = false := by
    intro token seen
    rcases peek?_eq_some_iff.mp seen with ⟨inSight, more, shapeHead⟩
    apply noType
    cases tokens with
    | nil =>
        rw [List.length_nil] at fills
        omega
    | cons first tokens =>
        rw [shape] at shapeHead
        exact congrArg some (List.cons.inj shapeHead).1
  rw [statementBody_untyped untyped, expressionStatement]
  simp only [read, span, Except.bind, stands]

/-- Whatever the grammar derives is read, and read to the end of the tokens in sight. -/
theorem statementBody_complete {cursor : Cursor} {tokens rest : List Token} {node : Node}
    (statement : Statement tokens node) (shape : cursor.rest = tokens ++ rest)
    (fills : cursor.position + tokens.length = cursor.bound) :
    cursor.statementBody = ⟨.ok node, ⟨cursor.bound, rest, cursor.bound⟩⟩ := by
  have declares : ∀ {type : Token} {more : List Token}, tokens = type :: more →
      type.kind.isType = true → cursor.statementBody = cursor.declaration type := by
    rintro type more rfl isType
    have seen : cursor.peek? = some type := by
      refine peek?_eq_some_iff.mpr ⟨?_, _, shape⟩
      rw [List.length_cons] at fills
      omega
    rw [statementBody, seen]
    exact if_pos isType
  cases statement with
  | variableDeclaration isType isName =>
      rw [declares rfl isType]
      exact declaration_variable isType isName shape fills
  | functionDeclaration isType isName opens inside closes =>
      rw [declares rfl isType]
      apply declaration_function isName opens inside closes shape
      simpa using fills
  | assignment assignment =>
      refine statementBody_of_expression assignment.expression
        (asStatement_of_assignment assignment) ?_ shape fills
      rcases assignment.exists_head with ⟨name, operator, more, rfl, isName, -⟩
      rintro token same
      rw [← Option.some.inj same, isName]
      rfl
  | call isName opens inside closes =>
      refine statementBody_of_expression (.arithmetic (.factor (.call isName opens inside closes)))
        (asStatement_call ..) ?_ shape fills
      rintro token same
      rw [← Option.some.inj same, isName]
      rfl

theorem functionDeclaration_sound {returnType name : Token} {cursor : Cursor} {node : Node}
    (read : (cursor.functionDeclaration returnType name).outcome = .ok node) :
    ∃ opening tokens closing fresh types,
      cursor.rest = opening :: (tokens ++ [closing]) ++
        (cursor.functionDeclaration returnType name).cursor.rest ∧
      opening.kind = .leftParen ∧ closing.kind = .rightParen ∧
      Separated Parameter fresh tokens types ∧
      node = .functionDeclaration name returnType types := by
  unfold functionDeclaration at read ⊢
  split at read
  · next present =>
      rw [if_pos present]
      rcases exists_of_any_peek? present with ⟨opening, rest, opens, -, shape⟩
      rcases Reply.outcome_map_eq_ok_iff.mp read with ⟨types, readTypes, rfl⟩
      obtain ⟨tokens, closing, fresh, restEq, closes, derived⟩ :=
        parameters_sound readTypes .nil
      refine ⟨opening, tokens, closing, fresh, types, ?_, opens, closes, derived, rfl⟩
      have behind : rest = cursor.advance.rest := by rw [advance_cons shape]
      rw [shape, behind, restEq]
      simp
  · cases read

theorem declaration_sound {type : Token} {cursor : Cursor} {node : Node}
    (isType : type.kind.isType = true) (seen : cursor.peek? = some type)
    (read : (cursor.declaration type).outcome = .ok node) :
    ∃ taken, cursor.rest = taken ++ (cursor.declaration type).cursor.rest ∧
      Statement taken node := by
  rcases peek?_eq_some_iff.mp seen with ⟨-, rest, shape⟩
  have behindType := advance_cons shape
  unfold declaration at read ⊢
  split at read
  · cases read
  · next name found =>
      have named := found
      rw [behindType] at named
      rcases List.head?_eq_some_iff.mp named with ⟨more, rfl⟩
      have behindName : cursor.advance.advance.rest = more := by
        rw [behindType]
        rfl
      split at read
      · cases read
      · next isName =>
          rw [if_neg isName]
          split at read
          · next paren =>
              rw [if_pos paren]
              obtain ⟨opening, tokens, closing, fresh, types, restEq, opens, closes, inside, rfl⟩ :=
                functionDeclaration_sound read
              refine ⟨_, ?_, .functionDeclaration isType (Decidable.not_not.mp isName) opens inside
                closes⟩
              rw [shape, ← behindName, restEq]
              rfl
          · next noParen =>
              obtain rfl := Except.ok.inj read
              rw [if_neg noParen, shape, behindName]
              exact ⟨[type, name], rfl, .variableDeclaration isType (Decidable.not_not.mp isName)⟩

theorem expressionStatement_sound {cursor : Cursor} {node : Node}
    (read : cursor.expressionStatement.outcome = .ok node) :
    ∃ taken, cursor.rest = taken ++ cursor.expressionStatement.cursor.rest ∧
      Statement taken node := by
  unfold expressionStatement at read ⊢
  cases outcome : cursor.expression.outcome with
  | error cause =>
      simp only [outcome] at read
      cases read
  | ok found =>
      rcases Phrase.read_sound outcome with ⟨taken, restEq, positionEq, expression⟩
      have span : cursor.rest.take (cursor.expression.cursor.position - cursor.position) =
          taken := take_passed restEq positionEq
      simp only [outcome, span] at read
      exact ⟨taken, restEq, asStatement_sound expression read⟩

/-- Whatever is read has a derivation from the tokens that were passed. -/
theorem statementBody_sound {cursor : Cursor} {node : Node}
    (read : cursor.statementBody.outcome = .ok node) :
    ∃ taken, cursor.rest = taken ++ cursor.statementBody.cursor.rest ∧ Statement taken node := by
  unfold statementBody at read ⊢
  split at read
  · next token seen =>
      split at read
      · next isType =>
          rw [if_pos isType]
          exact declaration_sound isType seen read
      · next noType =>
          rw [if_neg noType]
          exact expressionStatement_sound read
  · exact expressionStatement_sound read

/-!
### Statements

The body ends where the first semicolon is, in both directions: a derivation contains no semicolon,
and behind what was read there has to be one.
-/

/-- Tokens without a semicolon are before the first one. -/
theorem semicolonIndex_append {cursor : Cursor} {taken rest : List Token}
    (shape : cursor.rest = taken ++ rest) (clean : ∀ token ∈ taken, token.kind ≠ .semicolon) :
    cursor.semicolonIndex =
      cursor.position + (taken.length + rest.findIdx (·.kind == .semicolon)) := by
  have absent : taken.findIdx (·.kind == .semicolon) = taken.length :=
    List.findIdx_eq_length_of_false fun token member => beq_false_of_ne (clean token member)
  rw [semicolonIndex, shape, List.findIdx_append, if_neg (by omega), Nat.add_comm taken.length]

theorem semicolonIndex_eq {cursor : Cursor} {body rest : List Token} {semicolon : Token}
    (shape : cursor.rest = body ++ semicolon :: rest)
    (clean : ∀ token ∈ body, token.kind ≠ .semicolon) (ends : semicolon.kind = .semicolon) :
    cursor.semicolonIndex = cursor.position + body.length := by
  rw [semicolonIndex_append shape clean, List.findIdx_cons, beq_iff_eq.mpr ends, cond_true,
    Nat.add_zero]

/-- A statement of the grammar with a semicolon behind it is read up to that. -/
theorem statement_complete {cursor : Cursor} {body rest : List Token} {semicolon : Token}
    {node : Node} (statement : Statement body node) (ends : semicolon.kind = .semicolon)
    (shape : cursor.rest = body ++ semicolon :: rest) :
    cursor.statement =
      ⟨.ok node, ⟨cursor.position + body.length + 1, rest, cursor.bound⟩⟩ := by
  have fence := semicolonIndex_eq shape statement.unended ends
  have read : (cursor.withBound cursor.semicolonIndex).statementBody =
      ⟨.ok node, ⟨cursor.semicolonIndex, semicolon :: rest, cursor.semicolonIndex⟩⟩ :=
    statementBody_complete statement shape fence.symm
  rw [Cursor.statement, read, fence]
  simp [terminated, ends, advance, withBound]

/-- A statement that is read has a derivation from the tokens before its semicolon. -/
theorem statement_sound {cursor : Cursor} {node : Node}
    (read : cursor.statement.outcome = .ok node) :
    ∃ body semicolon rest, cursor.rest = body ++ semicolon :: rest ∧
      semicolon.kind = .semicolon ∧ Statement body node := by
  rcases statement_eq_ok read with ⟨readBody, semicolon, rest, ends, shape, -⟩
  rcases statementBody_sound readBody with ⟨body, restEq, statement⟩
  refine ⟨body, semicolon, rest, ?_, ends, statement⟩
  rw [← shape]
  exact restEq

/-- Where tokens are cut at a first semicolon, there is no choice. -/
theorem body_unique {first second behindFirst behindSecond : List Token} {one other : Token}
    (same : first ++ one :: behindFirst = second ++ other :: behindSecond)
    (cleanFirst : ∀ token ∈ first, token.kind ≠ .semicolon) (oneEnds : one.kind = .semicolon)
    (cleanSecond : ∀ token ∈ second, token.kind ≠ .semicolon)
    (otherEnds : other.kind = .semicolon) :
    first = second ∧ behindFirst = behindSecond := by
  obtain ⟨bodies, -, behind⟩ := first_cut_unique same cleanFirst oneEnds cleanSecond otherEnds
  exact ⟨bodies, behind⟩

/-- A statement is read exactly when the tokens up to the first semicolon have one of the forms of
the grammar, and as the tree that they spell.  The cursor is then right behind that semicolon, and
its bound is what it was before. -/
theorem statement_language (cursor : Cursor) (node : Node) :
    (cursor.statement.outcome = .ok node ↔
      ∃ body semicolon rest, cursor.rest = body ++ semicolon :: rest ∧
        (∀ token ∈ body, token.kind ≠ .semicolon) ∧ semicolon.kind = .semicolon ∧
        Statement body node) ∧
    (∀ body semicolon rest, cursor.rest = body ++ semicolon :: rest →
      (∀ token ∈ body, token.kind ≠ .semicolon) → semicolon.kind = .semicolon →
        cursor.statement.outcome = .ok node →
          cursor.statement.cursor = ⟨cursor.position + body.length + 1, rest, cursor.bound⟩) := by
  constructor
  constructor
  · intro read
    rcases statement_sound read with ⟨body, semicolon, rest, shape, ends, statement⟩
    exact ⟨body, semicolon, rest, shape, statement.unended, ends, statement⟩
  · rintro ⟨body, semicolon, rest, shape, -, ends, statement⟩
    rw [statement_complete statement ends shape]
  · intro body semicolon rest shape clean ends read
    rcases statement_sound read with ⟨found, foundEnd, behind, foundShape, foundEnds, statement⟩
    obtain ⟨rfl, rfl⟩ :=
      body_unique (shape.symm.trans foundShape) clean ends statement.unended foundEnds
    rw [statement_complete statement ends shape]

end Cursor

end CLike
