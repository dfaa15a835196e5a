/-
Module: CLike.Proofs.CommaLists
Layer: Proofs
Purpose: What stands between the parentheses of the calls and function declarations that are read:
  items with commas, in the form of the grammar exactly when there is one comma less than items.
Main exports: Nested, outerCommas, Grammar.CommaList, Grammar.EnclosedList,
  Grammar.Separated.enclosedList, Encloses, Grammar.Expression.calls, Grammar.Statement.lists,
  Session.perform_comma_lists
-/
import CLike.Proofs.Nesting
import CLike.Proofs.StatementLanguage
import CLike.Session

namespace CLike

open Grammar

/-!
### Commas outside of parentheses

The commas of a list are those that stand in none of the lists inside it.
-/

/-- Each opening parenthesis has its closing one. -/
abbrev Nested : List Token → Prop := Balanced (·.kind = .leftParen) (·.kind = .rightParen)

/-- The number of commas that are in no parentheses, where `depth` of them are open at the start. -/
def outerCommas : (depth : Nat) → List Token → Nat
  | _, [] => 0
  | depth, token :: rest =>
    if token.kind = .leftParen then outerCommas (depth + 1) rest
    else if token.kind = .rightParen then outerCommas (depth - 1) rest
    else if token.kind = .comma ∧ depth = 0 then outerCommas depth rest + 1
    else outerCommas depth rest

theorem ne_leftParen_of_closes {token : Token} (closes : token.kind = .rightParen) :
    token.kind ≠ .leftParen :=
  ne_of_eq_of_ne closes (by decide)

theorem outerCommas_closing {closing : Token} (closes : closing.kind = .rightParen) (depth : Nat)
    (rest : List Token) : outerCommas depth (closing :: rest) = outerCommas (depth - 1) rest := by
  rw [outerCommas, if_neg (ne_leftParen_of_closes closes), if_pos closes]

namespace Nested

variable {tokens : List Token}

/-- Nested tokens leave as many parentheses open as there were before. -/
theorem outerCommas_append (nested : Nested tokens) (depth : Nat) (rest : List Token) :
    outerCommas depth (tokens ++ rest) = outerCommas depth tokens + outerCommas depth rest := by
  induction nested generalizing depth rest with
  | nil => rw [List.nil_append, outerCommas, Nat.zero_add]
  | plain noOpening noClosing _ ih =>
      rw [List.cons_append, outerCommas, outerCommas, if_neg noOpening, if_neg noOpening,
        if_neg noClosing, if_neg noClosing, ih]
      split
      · exact Nat.add_right_comm ..
      · rfl
  | scope opens within closes _ ihWithin ih =>
      rw [List.cons_append, List.append_assoc, List.cons_append, outerCommas, outerCommas,
        if_pos opens, if_pos opens, ihWithin, ihWithin, outerCommas_closing closes,
        outerCommas_closing closes, Nat.add_sub_cancel, ih, Nat.add_assoc]

/-- Inside of open parentheses there is no comma to count. -/
theorem outerCommas_inside (nested : Nested tokens) (depth : Nat) :
    outerCommas (depth + 1) tokens = 0 := by
  induction nested generalizing depth with
  | nil => rw [outerCommas]
  | plain noOpening noClosing _ ih =>
      rw [outerCommas, if_neg noOpening, if_neg noClosing, if_neg (mt And.right depth.succ_ne_zero)]
      exact ih depth
  | scope opens within closes _ ihWithin ih =>
      have passed := Nested.outerCommas_append within (depth + 2)
      rw [outerCommas, if_pos opens, passed, ihWithin, outerCommas_closing closes]
      exact (Nat.zero_add _).trans (ih depth)

end Nested

/-- Nested tokens without a comma outside of parentheses, as the items of a list have to be. -/
structure Compact (tokens : List Token) : Prop where
  nested : Nested tokens
  commas : outerCommas 0 tokens = 0

namespace Compact

/-- Tokens that are no marks of a list. -/
theorem of_plain {tokens : List Token} (plain : ∀ token ∈ tokens,
    token.kind ≠ .leftParen ∧ token.kind ≠ .rightParen ∧ token.kind ≠ .comma) : Compact tokens := by
  induction tokens with
  | nil => exact ⟨.nil, rfl⟩
  | cons token rest ih =>
      obtain ⟨⟨noOpening, noClosing, noComma⟩, plainRest⟩ := List.forall_mem_cons.mp plain
      obtain ⟨nested, commas⟩ := ih plainRest
      refine ⟨.plain noOpening noClosing nested, ?_⟩
      rw [outerCommas, if_neg noOpening, if_neg noClosing, if_neg (mt And.left noComma), commas]

theorem single {token : Token} (noOpening : token.kind ≠ .leftParen)
    (noClosing : token.kind ≠ .rightParen) (noComma : token.kind ≠ .comma) : Compact [token] :=
  of_plain (List.forall_mem_singleton.mpr ⟨noOpening, noClosing, noComma⟩)

theorem append {first second : List Token} (one : Compact first) (two : Compact second) :
    Compact (first ++ second) where
  nested := one.nested.append two.nested
  commas := by
    rw [Nested.outerCommas_append one.nested, one.commas, two.commas]

theorem parenthesized {opening closing : Token} {inside : List Token}
    (opens : opening.kind = .leftParen) (nested : Nested inside)
    (closes : closing.kind = .rightParen) : Compact (opening :: (inside ++ [closing])) where
  nested := .scope opens nested closes .nil
  commas := by
    rw [outerCommas, if_pos opens, nested.outerCommas_append, nested.outerCommas_inside,
      outerCommas_closing closes]
    rfl

end Compact

namespace Grammar

/-!
### Items are compact
-/

/-- A token of a class that is no mark of a list. -/
theorem compact_of_kind {token : Token} {kind : Kind} (same : token.kind = kind)
    (noMark : kind ∉ [Kind.leftParen, .rightParen, .comma]) : Compact [token] := by
  simp only [List.mem_cons, List.not_mem_nil, or_false, not_or] at noMark
  obtain ⟨noOpening, noClosing, noComma⟩ := noMark
  subst same
  exact .single noOpening noClosing noComma

theorem compact_of_isLiteral {token : Token} (isLiteral : IsLiteral token) : Compact [token] := by
  rcases isLiteral with kind | kind | kind
  · exact compact_of_kind kind (by decide)
  · exact compact_of_kind kind (by decide)
  · exact compact_of_kind kind (by decide)

theorem compact_of_isArithmetic {token : Token} (isOperator : token.kind.isArithmetic = true) :
    Compact [token] :=
  .single (Kind.ne_of_member isOperator rfl) (Kind.ne_of_member isOperator rfl)
    (Kind.ne_of_member isOperator rfl)

theorem nested_comma {mark : Token} (isComma : mark.kind = .comma) : Nested [mark] :=
  .plain (ne_of_eq_of_ne isComma (by decide)) (ne_of_eq_of_ne isComma (by decide)) .nil

mutual

theorem Factor.compact {tokens : List Token} {node : Node} : Factor tokens node → Compact tokens
  | .literal isLiteral => compact_of_isLiteral isLiteral
  | .name isName => compact_of_kind isName (by decide)
  | .call isName opens inside closes =>
      (compact_of_kind isName (by decide)).append
        (.parenthesized opens (Separated.nested inside) closes)

theorem Arithmetic.compact {tokens : List Token} {node : Node} :
    Arithmetic tokens node → Compact tokens
  | .factor alone => Factor.compact alone
  | .operation first isOperator second =>
      (Arithmetic.compact first).append
        ((compact_of_isArithmetic isOperator).append (Factor.compact second))

theorem Separated.nested {fresh : Bool} {tokens : List Token} {nodes : List Node} :
    Separated Arithmetic fresh tokens nodes → Nested tokens
  | .nil => .nil
  | .comma before isComma => (Separated.nested before).append (nested_comma isComma)
  | .item before next => (Separated.nested before).append (Arithmetic.compact next).nested

end

theorem Parameter.compact {tokens : List Token} {type : Token} (parameter : Parameter tokens type) :
    Compact tokens := by
  refine .of_plain fun token member => ?_
  have isParameter := parameter.isParameter token member
  exact ⟨Kind.ne_of_member isParameter rfl, Kind.ne_of_member isParameter rfl,
    Kind.ne_of_member isParameter rfl⟩

/-!
### Lists as the grammar has them

What is read is `Separated`: there may be spare commas anywhere.  The grammar has none.
-/

/-- `item ("," item)*` -/
inductive Row {α : Type} (Item : List Token → α → Prop) : List Token → List α → Prop where
  | single {tokens : List Token} {item : α} (alone : Item tokens item) : Row Item tokens [item]
  | more {tokens more : List Token} {items : List α} {item : α} {mark : Token}
      (before : Row Item tokens items) (isComma : mark.kind = .comma) (next : Item more item) :
      Row Item (tokens ++ mark :: more) (items ++ [item])

/-- `(item ("," item)*)?` -/
def CommaList {α : Type} (Item : List Token → α → Prop) (tokens : List Token) (items : List α) :
    Prop :=
  (tokens = [] ∧ items = []) ∨ Row Item tokens items

/-- Items with at least one comma between neighbours, and perhaps more.  There is no comma too many
exactly when they are a list of the grammar. -/
def EnclosedList {α : Type} (Item : List Token → α → Prop) (tokens : List Token) : Prop :=
  ∃ fresh items, Separated Item fresh tokens items ∧ items.length ≤ outerCommas 0 tokens + 1 ∧
    (CommaList Item tokens items ↔ outerCommas 0 tokens = items.length - 1)

/-- The items so far against the commas so far.  With as few commas as there can be the items are a
list of the grammar, which goes up to here or up to one comma. -/
def Tally {α : Type} (Item : List Token → α → Prop) :
    (fresh : Bool) → List Token → List α → Prop
  | true, tokens, items => items.length ≤ outerCommas 0 tokens ∧
    (items.length = outerCommas 0 tokens → (tokens = [] ∧ items = []) ∨
      ∃ row mark, tokens = row ++ [mark] ∧ mark.kind = .comma ∧ Row Item row items)
  | false, tokens, items => items.length ≤ outerCommas 0 tokens + 1 ∧ 0 < items.length ∧
    (items.length = outerCommas 0 tokens + 1 → Row Item tokens items)

section

variable {α : Type} {Item : List Token → α → Prop} {tokens : List Token} {items : List α}

theorem outerCommas_snoc_comma (nested : Nested tokens) {mark : Token}
    (isComma : mark.kind = .comma) : outerCommas 0 (tokens ++ [mark]) = outerCommas 0 tokens + 1 := by
  have single : outerCommas 0 [mark] = 1 := by simp [outerCommas, isComma]
  rw [nested.outerCommas_append, single]

/-- A row of the grammar has one comma less than items. -/
theorem Row.outerCommas_eq (compact : ∀ more item, Item more item → Compact more)
    (row : Row Item tokens items) : Nested tokens ∧ outerCommas 0 tokens + 1 = items.length := by
  induction row with
  | single alone =>
      obtain ⟨nested, commas⟩ := compact _ _ alone
      exact ⟨nested, congrArg (· + 1) commas⟩
  | @more tokens more items item mark before isComma next ih =>
      obtain ⟨nested, commas⟩ := ih
      obtain ⟨nestedNext, commasNext⟩ := compact _ _ next
      have nestedComma := nested.append (nested_comma isComma)
      rw [← List.singleton_append, ← List.append_assoc]
      refine ⟨nestedComma.append nestedNext, ?_⟩
      rw [Nested.outerCommas_append nestedComma, outerCommas_snoc_comma nested isComma, commasNext,
        List.length_append, ← commas]
      rfl

/-- A comma that is read is one more, and so is an item. -/
theorem Separated.tally (compact : ∀ more item, Item more item → Compact more) {fresh : Bool}
    (separated : Separated Item fresh tokens items) :
    Nested tokens ∧ Tally Item fresh tokens items := by
  induction separated with
  | nil => exact ⟨.nil, Nat.le_refl _, fun _ => .inl ⟨rfl, rfl⟩⟩
  | @comma fresh tokens items mark before isComma ih =>
      obtain ⟨nested, tally⟩ := ih
      have commas := outerCommas_snoc_comma nested isComma
      refine ⟨nested.append (nested_comma isComma), ?_⟩
      cases fresh with
      -- A comma behind a comma is spare for good: no later item makes up for it.
      | true =>
          obtain ⟨enough, -⟩ := tally
          refine ⟨?_, fun same => ?_⟩
          · omega
          · omega
      | false =>
          obtain ⟨enough, -, row⟩ := tally
          refine ⟨?_, fun same => .inr ⟨tokens, mark, rfl, isComma, row ?_⟩⟩
          · omega
          · omega
  | @item tokens more items item before next ih =>
      obtain ⟨nested, enough, front⟩ := ih
      obtain ⟨nestedNext, commasNext⟩ := compact _ _ next
      have commas : outerCommas 0 (tokens ++ more) = outerCommas 0 tokens := by
        rw [nested.outerCommas_append, commasNext, Nat.add_zero]
      have length : (items ++ [item]).length = items.length + 1 := List.length_append
      refine ⟨nested.append nestedNext, ?_, ?_, fun same => ?_⟩
      · omega
      · omega
      · rcases front (by omega) with ⟨rfl, rfl⟩ | ⟨row, mark, rfl, isComma, isRow⟩
        · exact .single next
        · rw [List.append_assoc]
          exact .more isRow isComma next

/-- Whatever is read between parentheses, the commas tell whether it is a list of the grammar. -/
theorem Separated.enclosedList (compact : ∀ more item, Item more item → Compact more) {fresh : Bool}
    (separated : Separated Item fresh tokens items) : EnclosedList Item tokens := by
  obtain ⟨nested, tally⟩ := separated.tally compact
  have onlyRows : CommaList Item tokens items → outerCommas 0 tokens = items.length - 1 := by
    rintro (⟨rfl, rfl⟩ | row)
    · rfl
    · have commas := (row.outerCommas_eq compact).2
      omega
  cases fresh with
  | true =>
      obtain ⟨enough, front⟩ := tally
      refine ⟨true, items, separated, Nat.le_succ_of_le enough, onlyRows, fun few => ?_⟩
      rcases front (by omega) with nothing | ⟨row, mark, rfl, isComma, isRow⟩
      · exact .inl nothing
      · have commas := (isRow.outerCommas_eq compact).2
        omega
  | false =>
      obtain ⟨enough, filled, row⟩ := tally
      exact ⟨false, items, separated, enough, onlyRows, fun few => .inr (row (by omega))⟩

end

end Grammar

/-!
### Lists in longer texts

A name with an opening parenthesis behind it starts a list wherever it stands.  Texts are put
together from parts of which none but the first starts with such a parenthesis, so each list lies in
one of the parts.
-/

/-- Behind each name that has an opening parenthesis behind it, that parenthesis is closed again.
What stands before the name and what stands between the parentheses is `Good`. -/
def Encloses (Good : (before inside : List Token) → Prop) (tokens : List Token) : Prop :=
  ∀ before name opening rest, tokens = before ++ name :: opening :: rest →
    name.kind = .identifier → opening.kind = .leftParen →
      ∃ inside closing after, rest = inside ++ closing :: after ∧ closing.kind = .rightParen ∧
        Nested inside ∧ Good before inside

/-- A pair of tokens that stands in two texts together stands in one of them, if the second one does
not start with the second of the pair. -/
theorem pair_in_append {one two before rest : List Token} {name opening : Token}
    (shape : one ++ two = before ++ name :: opening :: rest) (apart : ∀ more, two ≠ opening :: more) :
    (∃ behind, one = before ++ name :: opening :: behind ∧ rest = behind ++ two) ∨
      ∃ front, before = one ++ front ∧ two = front ++ name :: opening :: rest := by
  rcases List.append_eq_append_iff.mp shape with ⟨front, same, later⟩ | ⟨behind, same, later⟩
  · exact .inr ⟨front, same, later⟩
  rcases behind with - | ⟨first, - | ⟨second, behind⟩⟩
  · rw [List.append_nil] at same
    exact .inr ⟨[], same ▸ (List.append_nil before).symm, later.symm⟩
  · exact absurd (List.cons.inj later).2.symm (apart rest)
  · simp only [List.cons_append, List.cons.injEq] at later
    obtain ⟨rfl, rfl, later⟩ := later
    exact .inl ⟨behind, same, later⟩

namespace Encloses

variable {Good Later : (before inside : List Token) → Prop} {tokens : List Token}

theorem mono (encloses : Encloses Later tokens)
    (weaker : ∀ before inside, Later before inside → Good before inside) :
    Encloses Good tokens := by
  intro before name opening rest shape isName opens
  obtain ⟨inside, closing, after, found, closes, nested, good⟩ :=
    encloses before name opening rest shape isName opens
  exact ⟨inside, closing, after, found, closes, nested, weaker before inside good⟩

theorem nil : Encloses Good [] := by
  intro before name opening rest shape
  cases before <;> cases shape

/-- A token that is no name starts no list. -/
theorem cons {token : Token} (noName : token.kind ≠ .identifier) (later : Encloses Later tokens)
    (behind : ∀ front inside, Later front inside → Good (token :: front) inside) :
    Encloses Good (token :: tokens) := by
  intro before name opening rest shape isName opens
  cases before with
  | nil =>
      obtain rfl := (List.cons.inj shape).1
      exact absurd isName noName
  | cons first before =>
      obtain ⟨rfl, shapeLater⟩ := List.cons.inj shape
      obtain ⟨inside, closing, after, found, closes, nested, good⟩ :=
        later before name opening rest shapeLater isName opens
      exact ⟨inside, closing, after, found, closes, nested, behind before inside good⟩

/-- Neither does a name that stands alone. -/
theorem single (token : Token) : Encloses Good [token] := by
  intro before name opening rest shape
  have lengths := congrArg List.length shape
  simp only [List.length_append, List.length_cons, List.length_nil] at lengths
  omega

theorem append {more : List Token} (first : Encloses Good tokens) (second : Encloses Later more)
    (apart : ∀ token ∈ more.head?, token.kind ≠ .leftParen)
    (behind : ∀ front inside, Later front inside → Good (tokens ++ front) inside) :
    Encloses Good (tokens ++ more) := by
  intro before name opening rest shape isName opens
  have noOpening : ∀ later, more ≠ opening :: later := by
    rintro later rfl
    exact apart opening rfl opens
  rcases pair_in_append shape noOpening with ⟨rest, found, rfl⟩ | ⟨front, rfl, found⟩
  · obtain ⟨inside, closing, after, rfl, closes, nested, good⟩ :=
      first before name opening rest found isName opens
    exact ⟨inside, closing, after ++ more, List.append_assoc .., closes, nested, good⟩
  · obtain ⟨inside, closing, after, enclosed, closes, nested, good⟩ :=
      second front name opening rest found isName opens
    exact ⟨inside, closing, after, enclosed, closes, nested, behind front inside good⟩

/-- A name with parentheses behind it starts the list between them. -/
theorem list {name opening closing : Token} (opens : opening.kind = .leftParen)
    (nested : Nested tokens) (closes : closing.kind = .rightParen) (good : Good [] tokens)
    (within : Encloses Later tokens)
    (behind : ∀ front inside, Later front inside → Good (name :: opening :: front) inside) :
    Encloses Good (name :: opening :: (tokens ++ [closing])) := by
  have noName : opening.kind ≠ .identifier := ne_of_eq_of_ne opens (by decide)
  have last : ∀ token ∈ [closing].head?, token.kind ≠ .leftParen := by
    rintro token ⟨⟩
    exact ne_leftParen_of_closes closes
  have inner : Encloses (fun front => Good (name :: opening :: front)) (tokens ++ [closing]) := by
    exact append (within.mono behind) (single closing) last fun _ _ => id
  have outer : Encloses (fun front => Good (name :: front)) (opening :: (tokens ++ [closing])) :=
    cons noName inner fun _ _ => id
  intro before name opening rest shape isName opens
  cases before with
  | nil =>
      obtain ⟨-, later⟩ := List.cons.inj shape
      obtain ⟨-, rfl⟩ := List.cons.inj later
      exact ⟨tokens, closing, [], rfl, closes, nested, good⟩
  | cons first before =>
      obtain ⟨rfl, shapeLater⟩ := List.cons.inj shape
      exact outer before name opening rest shapeLater isName opens

end Encloses

/-!
### Calls

In phrases there are no types, so every list belongs to a call.
-/

namespace Grammar

/-- All lists in the tokens are lists of arguments. -/
abbrev Calls : List Token → Prop := Encloses fun _ => EnclosedList Arithmetic

theorem enclosedList_arguments {fresh : Bool} {tokens : List Token} {arguments : List Node}
    (separated : Separated Arithmetic fresh tokens arguments) : EnclosedList Arithmetic tokens :=
  separated.enclosedList fun _ _ => Arithmetic.compact

/-- Arithmetic does not start with a parenthesis. -/
theorem Arithmetic.not_opens {tokens : List Token} {node : Node}
    (arithmetic : Arithmetic tokens node) :
    ∀ token ∈ tokens.head?, token.kind ≠ .leftParen := by
  obtain ⟨first, rest, rfl, starts⟩ := arithmetic.exists_head
  rintro token ⟨⟩
  rcases starts with (kind | kind | kind) | kind
  · exact ne_of_eq_of_ne kind (by decide)
  · exact ne_of_eq_of_ne kind (by decide)
  · exact ne_of_eq_of_ne kind (by decide)
  · exact ne_of_eq_of_ne kind (by decide)

/-- Behind a token that is neither a name nor a parenthesis the lists are those on its two sides. -/
theorem calls_around {tokens more : List Token} {mark : Token} {kind : Kind}
    (isMark : mark.kind = kind) (noName : kind ≠ .identifier) (noOpening : kind ≠ .leftParen)
    (first : Calls tokens) (second : Calls more) : Calls (tokens ++ mark :: more) := by
  subst isMark
  have behindMark : Calls (mark :: more) := .cons noName second fun _ _ => id
  refine first.append behindMark ?_ fun _ _ => id
  rintro token ⟨⟩
  exact noOpening

theorem calls_around_operator {tokens more : List Token} {operator : Token}
    (isOperator : operator.kind.isArithmetic = true) (first : Calls tokens) (second : Calls more) :
    Calls (tokens ++ operator :: more) :=
  calls_around rfl (Kind.ne_of_member isOperator rfl) (Kind.ne_of_member isOperator rfl) first second

mutual

theorem Factor.calls {tokens : List Token} {node : Node} : Factor tokens node → Calls tokens
  | .literal _ => .single _
  | .name _ => .single _
  | .call _ opens inside closes =>
      .list opens (Separated.nested inside) closes (enclosedList_arguments inside)
        (Separated.calls inside) fun _ _ => id

theorem Arithmetic.calls {tokens : List Token} {node : Node} :
    Arithmetic tokens node → Calls tokens
  | .factor alone => Factor.calls alone
  | .operation first isOperator second =>
      calls_around_operator isOperator (Arithmetic.calls first) (Factor.calls second)

theorem Separated.calls {fresh : Bool} {tokens : List Token} {nodes : List Node} :
    Separated Arithmetic fresh tokens nodes → Calls tokens
  | .nil => .nil
  | .comma before isComma =>
      calls_around isComma (by decide) (by decide) (Separated.calls before) .nil
  | .item before next =>
      (Separated.calls before).append (Arithmetic.calls next) next.not_opens fun _ _ => id

end

theorem Expression.calls {tokens : List Token} {node : Node} (expression : Expression tokens node) :
    Calls tokens := by
  induction expression with
  | arithmetic alone => exact alone.calls
  | assignment _ assigns second ih =>
      exact calls_around assigns (by decide) (by decide) ih second.calls

/-- No token of an expression names a type. -/
theorem Expression.untyped {tokens : List Token} {node : Node}
    (expression : Expression tokens node) : ∀ token ∈ tokens, token.kind.isType = false := by
  have ofPhrase : ∀ kind : Kind, kind.isPhrase = true → kind.isType = false := by
    intro kind
    cases kind <;> decide
  induction expression with
  | arithmetic alone =>
      exact fun token member => ofPhrase _ (alone.isPhrase token member)
  | assignment _ assigns second ih =>
      refine List.forall_mem_append.mpr ⟨ih, List.forall_mem_cons.mpr ⟨?_, fun token member => ?_⟩⟩
      · rw [assigns]
        rfl
      · exact ofPhrase _ (second.isPhrase token member)

/-!
### Statements and programs

Behind a type the name is that of a function which is declared.
-/

/-- The list behind a name: the parameters of a function if the name is declared, and otherwise the
arguments of a call. -/
def ListBehind (before inside : List Token) : Prop :=
  if before.getLast?.any (·.kind.isType) then EnclosedList Parameter inside
  else EnclosedList Arithmetic inside

theorem ListBehind.of_untyped {before inside : List Token}
    (untyped : ∀ token ∈ before, token.kind.isType = false)
    (arguments : EnclosedList Arithmetic inside) : ListBehind before inside := by
  rw [ListBehind, if_neg]
  · exact arguments
  · intro declares
    obtain ⟨type, isLast, isType⟩ := (Option.any_eq_true ..).mp declares
    rw [untyped type (List.mem_of_getLast? isLast)] at isType
    cases isType

/-- A statement does not declare what is behind its semicolon. -/
theorem ListBehind.behind_semicolon {body front inside : List Token} {semicolon : Token}
    (ends : semicolon.kind = .semicolon) (list : ListBehind front inside) :
    ListBehind (body ++ semicolon :: front) inside := by
  have untyped : semicolon.kind.isType = false := by
    rw [ends]
    rfl
  have last : (body ++ semicolon :: front).getLast?.any (·.kind.isType) =
      front.getLast?.any (·.kind.isType) := by
    rw [List.getLast?_append_cons, List.getLast?_cons]
    cases front.getLast? with
    | none => exact untyped
    | some token => rfl
  rw [ListBehind, last]
  exact list

theorem Expression.lists {tokens : List Token} {node : Node} (expression : Expression tokens node) :
    Encloses ListBehind tokens := by
  intro before name opening rest shape isName opens
  obtain ⟨inside, closing, after, found, closes, nested, arguments⟩ :=
    expression.calls before name opening rest shape isName opens
  refine ⟨inside, closing, after, found, closes, nested, .of_untyped (fun token member => ?_)
    arguments⟩
  exact expression.untyped token (shape ▸ List.mem_append_left _ member)

/-- There are no parentheses in parameters. -/
theorem Separated.lists_parameters {fresh : Bool} {tokens types : List Token}
    (separated : Separated Parameter fresh tokens types) (Good : List Token → List Token → Prop) :
    Encloses Good tokens := by
  have noOpening : ∀ token ∈ tokens, token.kind ≠ .leftParen :=
    separated.forall_mem (fun _ isComma => ne_of_eq_of_ne isComma (by decide))
      fun _ _ parameter token member => Kind.ne_of_member (parameter.isParameter token member) rfl
  rintro before name opening rest rfl - opens
  exact absurd opens (noOpening opening (by simp))

theorem Statement.lists {tokens : List Token} {node : Node} (statement : Statement tokens node) :
    Encloses ListBehind tokens := by
  cases statement with
  | variableDeclaration isType isName =>
      exact .cons (Kind.ne_of_member isType rfl) (.single _) fun _ _ => id
  | @functionDeclaration type name opening closing fresh tokens types isType isName opens inside
      closes =>
      have compact : ∀ more item, Parameter more item → Compact more := fun _ _ => Parameter.compact
      have parameters := inside.enclosedList compact
      have declared : Encloses (fun front => ListBehind (type :: front))
          (name :: opening :: (tokens ++ [closing])) := by
        refine .list opens (inside.tally compact).1 closes ?_
          (inside.lists_parameters fun _ _ => False) fun _ _ => False.elim
        rw [ListBehind, if_pos]
        · exact parameters
        · exact isType
      exact .cons (Kind.ne_of_member isType rfl) declared fun _ _ => id
  | assignment assignment => exact assignment.expression.lists
  | call isName opens inside closes =>
      exact (Expression.arithmetic (.factor (.call isName opens inside closes))).lists

/-- The lists of a statement and of what is behind its semicolon. -/
theorem Statement.lists_append {body later : List Token} {node : Node} {semicolon : Token}
    (statement : Statement body node) (ends : semicolon.kind = .semicolon)
    (behind : Encloses ListBehind later) : Encloses ListBehind (body ++ semicolon :: later) := by
  have rest : Encloses (fun before inside => ∃ front, before = semicolon :: front ∧
      ListBehind front inside) (semicolon :: later) :=
    .cons (ne_of_eq_of_ne ends (by decide)) behind fun front _ list => ⟨front, rfl, list⟩
  refine statement.lists.append rest ?_ ?_
  · rintro token ⟨⟩
    exact ne_of_eq_of_ne ends (by decide)
  · rintro _ inside ⟨front, rfl, list⟩
    exact list.behind_semicolon ends

end Grammar

/-!
### Readings

What a reading passes is a phrase, a statement with its semicolon, or several of these.
-/

/-- Every phrase is an expression. -/
theorem Phrase.Extent.Derives.expression {extent : Phrase.Extent} {tokens : List Token}
    {node : Node} (derived : extent.Derives tokens node) : Expression tokens node := by
  cases extent with
  | factor => exact .arithmetic (.factor derived)
  | arithmetic => exact .arithmetic derived
  | expression => exact derived

namespace Cursor

theorem read_lists {extent : Phrase.Extent} {cursor : Cursor} {node : Node}
    (read : (Phrase.read extent cursor).outcome = .ok node) :
    ∃ taken, cursor.rest = taken ++ (Phrase.read extent cursor).cursor.rest ∧
      Encloses ListBehind taken := by
  obtain ⟨taken, shape, -, derived⟩ := Phrase.read_sound read
  exact ⟨taken, shape, derived.expression.lists⟩

/-- A statement that is read is passed with its semicolon. -/
theorem statement_passes {cursor : Cursor} {node : Node}
    (read : cursor.statement.outcome = .ok node) :
    ∃ body semicolon, cursor.rest = body ++ semicolon :: cursor.statement.cursor.rest ∧
      semicolon.kind = .semicolon ∧ Statement body node := by
  obtain ⟨body, semicolon, rest, shape, ends, statement⟩ := statement_sound read
  refine ⟨body, semicolon, ?_, ends, statement⟩
  rw [statement_complete statement ends shape]
  exact shape

theorem statement_lists {cursor : Cursor} {node : Node}
    (read : cursor.statement.outcome = .ok node) :
    ∃ taken, cursor.rest = taken ++ cursor.statement.cursor.rest ∧ Encloses ListBehind taken := by
  obtain ⟨body, semicolon, shape, ends, statement⟩ := statement_passes read
  refine ⟨body ++ [semicolon], ?_, statement.lists_append ends .nil⟩
  rw [shape, List.append_assoc, List.singleton_append]

theorem program_lists {cursor : Cursor} {nodes : List Node}
    (read : cursor.program.outcome = .ok nodes) :
    ∃ taken, cursor.rest = taken ++ cursor.program.cursor.rest ∧ Encloses ListBehind taken := by
  fun_induction program cursor generalizing nodes with
  | case1 cursor ended => exact ⟨[], rfl, .nil⟩
  | case2 => cases read
  | case3 cursor unended reply node readHere =>
      rename_i ih
      obtain ⟨body, semicolon, shape, ends, statement⟩ := statement_passes readHere
      obtain ⟨later, readLater, -⟩ := Reply.outcome_map_eq_ok_iff.mp read
      obtain ⟨taken, shapeLater, lists⟩ := ih readLater
      refine ⟨body ++ semicolon :: taken, ?_, statement.lists_append ends lists⟩
      rw [shape, shapeLater, List.append_assoc, List.cons_append]
      rfl

end Cursor

namespace Session

/-- A turn that succeeds gives what its reading has read. -/
theorem outcome_of_take {α : Type} {session : Session} {product : α → Product} {reply : Reply α}
    {result : Product} (success : (session.take product reply).outcome = .ok result) :
    ∃ found, reply.outcome = .ok found ∧ product found = result :=
  Reply.outcome_map_eq_ok_iff.mp success

/-- In the tokens that a successful call passes, every name with a parenthesis behind it starts a
list, and the parenthesis is closed again.  Between the two stand parameters if the name is declared
and arithmetic otherwise, with at least one comma between neighbours.  They are a list of the
documented grammar exactly when the commas of the list are one less than its items, and there may
be more: commas in front, behind and doubled are read as well. -/
theorem perform_comma_lists {session : Session} {call : Call} {product : Product}
    (noReturn : call ≠ .restore) (success : (session.perform call).outcome = .ok product) :
    ∃ taken, session.cursor.rest = taken ++ (session.perform call).session.cursor.rest ∧
      ∀ before name opening rest, taken = before ++ name :: opening :: rest →
        name.kind = .identifier → opening.kind = .leftParen →
          ∃ inside closing after, rest = inside ++ closing :: after ∧
            closing.kind = .rightParen ∧ Nested inside ∧
            if before.getLast?.any (·.kind.isType) then EnclosedList Parameter inside
            else EnclosedList Arithmetic inside := by
  cases call with
  | statement =>
      obtain ⟨node, read, -⟩ := outcome_of_take success
      exact Cursor.statement_lists read
  | expression =>
      obtain ⟨node, read, -⟩ := outcome_of_take success
      exact Cursor.read_lists read
  | arithmetic =>
      obtain ⟨node, read, -⟩ := outcome_of_take success
      exact Cursor.read_lists read
  | factor =>
      obtain ⟨node, read, -⟩ := outcome_of_take success
      exact Cursor.read_lists read
  | program =>
      obtain ⟨nodes, read, -⟩ := outcome_of_take success
      exact Cursor.program_lists read
  | save => exact ⟨[], rfl, Encloses.nil⟩
  | restore => exact absurd rfl noReturn

/-- A comma with nothing behind it is read, and is the one too many. -/
theorem perform_comma_lists_spare_comma :
    let name := Token.identifier "f"
    let opening := Token.ofText .leftParen "("
    let inside := [Token.integer 1, Token.ofText .comma ","]
    let behind := [Token.ofText .rightParen ")", Token.ofText .semicolon ";"]
    let session := ofTokens (name :: opening :: (inside ++ behind))
    Call.statement ≠ .restore ∧
      (session.perform .statement).outcome = .ok (.node (.call name [.leaf (.integer 1)])) ∧
      EnclosedList Arithmetic inside ∧ outerCommas 0 inside = 1 := by
  intro name opening inside behind session
  have noReturn : Call.statement ≠ .restore := by decide
  have success : (session.perform .statement).outcome =
      .ok (.node (.call name [.leaf (.integer 1)])) := rfl
  obtain ⟨taken, shape, lists⟩ := perform_comma_lists noReturn success
  have all : taken = name :: opening :: (inside ++ behind) :=
    (shape.trans (List.append_nil taken)).symm
  obtain ⟨found, closing, after, sameRest, closes, nested, list⟩ :=
    lists [] name opening (inside ++ behind) all rfl rfl
  have closed : Nested inside := (compact_of_kind rfl (by decide)).nested.append (nested_comma rfl)
  have apart : ∀ token : Token, token.kind = .leftParen → ¬token.kind = .rightParen :=
    fun token opens => ne_of_eq_of_ne opens (by decide)
  obtain rfl := closed.unique apart nested rfl closes sameRest
  exact ⟨noReturn, success, list, rfl⟩

end Session

end CLike
