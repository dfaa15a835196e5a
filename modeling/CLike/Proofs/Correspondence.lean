/-
Module: CLike.Proofs.Correspondence
Layer: Proofs
Purpose: Two readings of tokens that correspond one by one go the same way, and their trees have the
  same shape, with corresponding tokens in the same places.
Main exports: Node.Corresponds, Cursor.Corresponds, GrammarError.Corresponds, Reply.Corresponds,
  Phrase.State.Corresponds, Cursor.Corresponds.read, Cursor.Corresponds.statement,
  Cursor.Corresponds.program
-/
import CLike.Node.Dump
import CLike.Proofs.Likeness
import CLike.Proofs.Relocation
import Mathlib.Data.List.Forall2

namespace CLike

/-- Two trees of the same shape, which have corresponding tokens in the same places.  Those of calls
are the names that they were made of, with the classes that the names had then. -/
inductive Node.Corresponds (paired : Token → Token → Prop) : Node → Node → Prop where
  | leaf {one two : Token} (tokens : paired one two) : Corresponds paired (.leaf one) (.leaf two)
  | call {one two : Token} {arguments others : List Node} (callees : paired one two)
      (each : List.Forall₂ (Corresponds paired) arguments others) :
      Corresponds paired (.call one arguments) (.call two others)
  | operation {one two : Token} {left right otherLeft otherRight : Node}
      (operators : paired one two) (lefts : Corresponds paired left otherLeft)
      (rights : Corresponds paired right otherRight) :
      Corresponds paired (.operation one left right) (.operation two otherLeft otherRight)
  | variableDeclaration {one two type other : Token} (names : paired one two)
      (types : paired type other) :
      Corresponds paired (.variableDeclaration one type) (.variableDeclaration two other)
  | functionDeclaration {one two type other : Token} {parameters others : List Token}
      (names : paired one two) (types : paired type other)
      (each : List.Forall₂ paired parameters others) :
      Corresponds paired (.functionDeclaration one type parameters)
        (.functionDeclaration two other others)
  | block {one two : Token} {statements others : List Node} (tokens : paired one two)
      (each : List.Forall₂ (Corresponds paired) statements others) :
      Corresponds paired (.block one statements) (.block two others)

/-!
### Alike trees

Trees whose tokens are alike in the same places are alike, and nobody can tell them apart by what is
written of them.
-/

theorem Token.text_eq_of_beq {one two : Token} (same : (one == two) = true) :
    one.text = two.text :=
  congrArg Literal.display (beq_iff.mp same).2

/-- What is the same of the items is the same of the lists. -/
theorem map_eq_of_forall₂ {α β : Type} {view : α → β} {some others : List α}
    (each : List.Forall₂ (fun one two => view one = view two) some others) :
    some.map view = others.map view := by
  induction each with
  | nil => rfl
  | cons first _ ih => rw [List.map_cons, List.map_cons, first, ih]

namespace Node

/-- Trees with tokens that are alike. -/
abbrev Likened : Node → Node → Prop := Corresponds fun one two => (one == two) = true

mutual

theorem Likened.alike : ∀ {one two : Node}, Likened one two → Node.alike one two = true
  | _, _, .leaf tokens => tokens
  | _, _, .call callees each =>
      comparesParts.call.mpr
        ⟨(Token.beq_iff.mp callees).2, alikeEach_iff_forall₂.mp (likenedEach_alike each)⟩
  | _, _, .operation operators lefts rights => by
      rw [Node.alike, operators, Likened.alike lefts, Likened.alike rights]
      rfl
  | _, _, .variableDeclaration names types => by
      rw [Node.alike, names, types]
      rfl
  | _, _, .functionDeclaration names types each => by
      rw [Node.alike, names, types, list_beq_iff_forall₂.mpr each]
      rfl
  | _, _, .block tokens each => by
      rw [Node.alike, tokens, likenedEach_alike each]
      rfl

theorem likenedEach_alike :
    ∀ {some others : List Node}, List.Forall₂ Likened some others → alikeEach some others = true
  | _, _, .nil => rfl
  | _, _, .cons first rest => by
      rw [alikeEach, Likened.alike first, likenedEach_alike rest]
      rfl

end

theorem Likened.dump_eq {one two : Node} (likened : Likened one two) : one.dump = two.dump :=
  dump_eq_of_beq likened.alike

mutual

/-- Trees correspond in each way in which all corresponding tokens do. -/
theorem Corresponds.mono {paired other : Token → Token → Prop}
    (weaker : ∀ one two, paired one two → other one two) :
    ∀ {one two : Node}, Corresponds paired one two → Corresponds other one two
  | _, _, .leaf tokens => .leaf (weaker _ _ tokens)
  | _, _, .call callees each => .call (weaker _ _ callees) (correspondEach_mono weaker each)
  | _, _, .operation operators lefts rights =>
      .operation (weaker _ _ operators) (Corresponds.mono weaker lefts)
        (Corresponds.mono weaker rights)
  | _, _, .variableDeclaration names types =>
      .variableDeclaration (weaker _ _ names) (weaker _ _ types)
  | _, _, .functionDeclaration names types each =>
      .functionDeclaration (weaker _ _ names) (weaker _ _ types) (each.imp weaker)
  | _, _, .block tokens each => .block (weaker _ _ tokens) (correspondEach_mono weaker each)

theorem correspondEach_mono {paired other : Token → Token → Prop}
    (weaker : ∀ one two, paired one two → other one two) :
    ∀ {some others : List Node}, List.Forall₂ (Corresponds paired) some others →
      List.Forall₂ (Corresponds other) some others
  | _, _, .nil => .nil
  | _, _, .cons first rest => .cons (Corresponds.mono weaker first) (correspondEach_mono weaker rest)

end

end Node

/-!
### Errors

An error names a token only where a factor is missing, and that is the token at the cursor.
-/

/-- Whether the error is about one token, whose text it holds. -/
def GrammarError.namesToken : GrammarError → Bool
  | .unsupportedFactor _ => true
  | _ => false

/-- Two errors of the same kind.  A token that is named is the one at the cursor. -/
inductive GrammarError.Corresponds : (here? there? : Option Token) → GrammarError →
    GrammarError → Prop where
  | unsupportedFactor (here there : Token) :
      Corresponds (some here) (some there) (.unsupportedFactor here.text)
        (.unsupportedFactor there.text)
  | bare {here? there? : Option Token} {cause : GrammarError}
      (nameless : cause.namesToken = false) : Corresponds here? there? cause cause

/-- Two outcomes that are both results, or both errors at the given tokens. -/
inductive OutcomesCorrespond {α : Type} (related : α → α → Prop) (here? there? : Option Token) :
    Except GrammarError α → Except GrammarError α → Prop where
  | ok {one two : α} (results : related one two) :
      OutcomesCorrespond related here? there? (.ok one) (.ok two)
  | error {one two : GrammarError} (causes : one.Corresponds here? there? two) :
      OutcomesCorrespond related here? there? (.error one) (.error two)

namespace OutcomesCorrespond

variable {α β : Type} {here? there? : Option Token}

/-- Two equal errors that name no token. -/
theorem bare {related : α → α → Prop} {cause : GrammarError}
    (nameless : cause.namesToken = false) :
    OutcomesCorrespond related here? there? (.error cause) (.error cause) :=
  .error (.bare nameless)

/-- Results that are changed in corresponding ways. -/
theorem map {related : α → α → Prop} {other : β → β → Prop} {one two : α → β}
    {first second : Except GrammarError α}
    (outcomes : OutcomesCorrespond related here? there? first second)
    (changed : ∀ found also, related found also → other (one found) (two also)) :
    OutcomesCorrespond other here? there? (first.map one) (second.map two) := by
  cases outcomes with
  | ok results => exact .ok (changed _ _ results)
  | error causes => exact .error causes

end OutcomesCorrespond

/-!
### Cursors
-/

/-- Two cursors at the same position with the same bound and corresponding tokens before them. -/
structure Cursor.Corresponds (paired : Token → Token → Prop) (one two : Cursor) : Prop where
  position_eq : one.position = two.position
  rest : List.Forall₂ paired one.rest two.rest
  bound_eq : one.bound = two.bound

/-- Two readings that come to the same place with corresponding outcomes. -/
structure Reply.Corresponds {α : Type} (paired : Token → Token → Prop) (related : α → α → Prop)
    (one two : Reply α) : Prop where
  cursor : one.cursor.Corresponds paired two.cursor
  outcome : OutcomesCorrespond related one.cursor.rest.head? two.cursor.rest.head? one.outcome
    two.outcome

/-- Corresponding tokens are of the same class. -/
def SameKinds (paired : Token → Token → Prop) : Prop :=
  ∀ one two, paired one two → one.kind = two.kind

section

variable {paired : Token → Token → Prop}

/-- Corresponding tokens have the same classes in the same order. -/
theorem SameKinds.map_kind_eq (sameKinds : SameKinds paired) {some others : List Token}
    (each : List.Forall₂ paired some others) : some.map (·.kind) = others.map (·.kind) :=
  map_eq_of_forall₂ (each.imp sameKinds)

/-- Whether there is a token of a class is the same in corresponding tokens. -/
theorem SameKinds.any_eq (sameKinds : SameKinds paired) {some others : List Token}
    (each : List.Forall₂ paired some others) (kind : Kind) :
    some.any (·.kind == kind) = others.any (·.kind == kind) := by
  have same := congrArg (List.any · (· == kind)) (sameKinds.map_kind_eq each)
  rwa [List.any_map, List.any_map] at same

theorem head?_corresponds {some others : List Token} (each : List.Forall₂ paired some others) :
    Option.Rel paired some.head? others.head? := by
  cases each with
  | nil => exact .none
  | cons first _ => exact .some first

namespace Cursor.Corresponds

variable {one two : Cursor}

theorem peek? (cursors : one.Corresponds paired two) : Option.Rel paired one.peek? two.peek? := by
  rw [Cursor.peek?, Cursor.peek?, cursors.position_eq, cursors.bound_eq]
  split
  · exact head?_corresponds cursors.rest
  · exact .none

/-- Where one cursor sees nothing, neither does the other. -/
theorem peek?_eq_none (cursors : one.Corresponds paired two) (unseen : one.peek? = none) :
    two.peek? = none := by
  have seen := cursors.peek?
  rw [unseen] at seen
  generalize two.peek? = there at seen ⊢
  cases seen
  rfl

/-- Where one cursor sees a token, the other one sees a corresponding one. -/
theorem peek?_eq_some (cursors : one.Corresponds paired two) {here : Token}
    (seen : one.peek? = some here) : ∃ there, two.peek? = some there ∧ paired here there := by
  have both := cursors.peek?
  rw [seen] at both
  generalize two.peek? = other at both ⊢
  cases both with
  | some tokens => exact ⟨_, rfl, tokens⟩

theorem advance (cursors : one.Corresponds paired two) :
    one.advance.Corresponds paired two.advance := by
  rcases one with ⟨position, rest, bound⟩
  rcases two with ⟨other, others, limit⟩
  rcases cursors with ⟨rfl, each, rfl⟩
  cases each with
  | nil => exact ⟨rfl, .nil, rfl⟩
  | cons _ later => exact ⟨rfl, later, rfl⟩

theorem any_peek?_eq (sameKinds : SameKinds paired) (cursors : one.Corresponds paired two)
    (kind : Kind) : one.peek?.any (·.kind == kind) = two.peek?.any (·.kind == kind) := by
  have seen := cursors.peek?
  generalize one.peek? = here at seen ⊢
  generalize two.peek? = there at seen ⊢
  cases seen with
  | none => rfl
  | some tokens => rw [Option.any_some, Option.any_some, sameKinds _ _ tokens]

theorem skip (sameKinds : SameKinds paired) (cursors : one.Corresponds paired two) (kind : Kind) :
    (one.skip kind).Corresponds paired (two.skip kind) := by
  rw [Cursor.skip, Cursor.skip, cursors.any_peek?_eq sameKinds]
  split
  · exact cursors.advance
  · exact cursors

theorem withBound (cursors : one.Corresponds paired two) (bound : Nat) :
    (one.withBound bound).Corresponds paired (two.withBound bound) :=
  ⟨cursors.position_eq, cursors.rest, rfl⟩

theorem atEnd_eq (cursors : one.Corresponds paired two) : one.atEnd = two.atEnd := by
  have sameLength := cursors.rest.length_eq
  rw [Bool.eq_iff_iff, Cursor.atEnd, Cursor.atEnd, List.isEmpty_iff_length_eq_zero,
    List.isEmpty_iff_length_eq_zero, sameLength]

theorem semicolonIndex_eq (sameKinds : SameKinds paired) (cursors : one.Corresponds paired two) :
    one.semicolonIndex = two.semicolonIndex := by
  have same := congrArg (List.findIdx (· == Kind.semicolon)) (sameKinds.map_kind_eq cursors.rest)
  rw [List.findIdx_map, List.findIdx_map] at same
  rw [Cursor.semicolonIndex, Cursor.semicolonIndex, cursors.position_eq]
  exact congrArg (two.position + ·) same

/-- The tokens in sight correspond. -/
theorem visible (cursors : one.Corresponds paired two) :
    List.Forall₂ paired one.visible two.visible := by
  rw [Cursor.visible, Cursor.visible, cursors.position_eq, cursors.bound_eq]
  exact List.forall₂_take _ cursors.rest

end Cursor.Corresponds

/-- An error that names no token, at corresponding cursors. -/
theorem Reply.Corresponds.bare {α : Type} {related : α → α → Prop} {one two : Cursor}
    (cursors : one.Corresponds paired two) {cause : GrammarError}
    (nameless : cause.namesToken = false) :
    Reply.Corresponds paired related ⟨.error cause, one⟩ ⟨.error cause, two⟩ :=
  ⟨cursors, .bare nameless⟩

/-- Readings whose results are changed in corresponding ways. -/
theorem Reply.Corresponds.map {α β : Type} {related : α → α → Prop} {other : β → β → Prop}
    {one two : α → β} {first second : Reply α}
    (replies : Reply.Corresponds paired related first second)
    (changed : ∀ found also, related found also → other (one found) (two also)) :
    Reply.Corresponds paired other (first.map one) (second.map two) :=
  ⟨replies.cursor, replies.outcome.map changed⟩

end

namespace Phrase

/-!
### Phrases

What a reading remembers are trees and tokens.  Two states correspond when they are of the same form
and remember corresponding ones, and a step by corresponding tokens keeps that.
-/

section

variable (paired : Token → Token → Prop)

structure Pending.Corresponds (one two : Pending) : Prop where
  left : one.left.Corresponds paired two.left
  operator : paired one.operator two.operator

structure OpenCall.Corresponds (one two : OpenCall) : Prop where
  waiting : Option.Rel (Pending.Corresponds paired) one.waiting two.waiting
  callee : paired one.callee two.callee
  arguments : List.Forall₂ (Node.Corresponds paired) one.arguments two.arguments

inductive Context.Corresponds : Context → Context → Prop where
  | whole (extent : Extent) {one two : Option Pending}
      (assigned : Option.Rel (Pending.Corresponds paired) one two) :
      Corresponds (.whole extent one) (.whole extent two)
  | argument {one two : OpenCall} {outer other : Context} (calls : one.Corresponds paired two)
      (contexts : Corresponds outer other) : Corresponds (.argument one outer) (.argument two other)

inductive State.Corresponds : State → State → Prop where
  | operand {one two : Option Pending} {context other : Context}
      (waiting : Option.Rel (Pending.Corresponds paired) one two)
      (contexts : context.Corresponds paired other) :
      Corresponds (.operand one context) (.operand two other)
  | named {name other : Token} {one two : Option Pending} {context outside : Context}
      (names : paired name other) (waiting : Option.Rel (Pending.Corresponds paired) one two)
      (contexts : context.Corresponds paired outside) :
      Corresponds (.named name one context) (.named other two outside)
  | chain {one two : Node} {context other : Context} (phrases : one.Corresponds paired two)
      (contexts : context.Corresponds paired other) :
      Corresponds (.chain one context) (.chain two other)
  | between (expecting : Bool) {one two : OpenCall} {outer other : Context}
      (calls : one.Corresponds paired two) (contexts : outer.Corresponds paired other) :
      Corresponds (.between expecting one outer) (.between expecting two other)

/-- What corresponding tokens do to corresponding states. -/
inductive Step.Corresponds (here there : Token) : Step → Step → Prop where
  | more {one two : State} (states : one.Corresponds paired two) :
      Corresponds here there (.more one) (.more two)
  | done {one two : Node} (phrases : one.Corresponds paired two) :
      Corresponds here there (.done one) (.done two)
  | fail {one two : GrammarError} (causes : one.Corresponds (some here) (some there) two) :
      Corresponds here there (.fail one) (.fail two)

end

section

variable {paired : Token → Token → Prop} {here there : Token}

theorem join_corresponds {one two : Option Pending} {right other : Node}
    (waiting : Option.Rel (Pending.Corresponds paired) one two)
    (rights : right.Corresponds paired other) :
    (join one right).Corresponds paired (join two other) := by
  cases waiting with
  | none => exact rights
  | some waits => exact .operation waits.operator waits.left rights

namespace OpenCall.Corresponds

variable {one two : OpenCall}

theorem push (calls : one.Corresponds paired two) {argument other : Node}
    (arguments : argument.Corresponds paired other) :
    (one.push argument).Corresponds paired (two.push other) :=
  ⟨calls.waiting, calls.callee, .cons arguments calls.arguments⟩

theorem close (calls : one.Corresponds paired two) :
    one.close.Corresponds paired two.close := by
  have arguments := List.forall₂_reverse_iff.mpr calls.arguments
  exact join_corresponds calls.waiting (.call calls.callee arguments)

end OpenCall.Corresponds

theorem operandStep_corresponds (sameKinds : SameKinds paired) (tokens : paired here there)
    {one two : Option Pending} {context other : Context}
    (waiting : Option.Rel (Pending.Corresponds paired) one two)
    (contexts : context.Corresponds paired other) :
    Step.Corresponds paired here there (operandStep one context here)
      (operandStep two other there) := by
  rw [operandStep, operandStep, sameKinds _ _ tokens]
  split
  · exact .more (.chain (join_corresponds waiting (.leaf tokens)) contexts)
  · split
    · exact .more (.named tokens waiting contexts)
    · exact .fail (.unsupportedFactor here there)

theorem betweenStep_corresponds (sameKinds : SameKinds paired) (tokens : paired here there)
    (expecting : Bool) {one two : OpenCall} {outer other : Context}
    (calls : one.Corresponds paired two) (contexts : outer.Corresponds paired other) :
    Step.Corresponds paired here there (betweenStep expecting one outer here)
      (betweenStep expecting two other there) := by
  rw [betweenStep, betweenStep, sameKinds _ _ tokens]
  split
  · exact .more (.chain calls.close contexts)
  · split
    · exact .more (.between true calls contexts)
    · split
      · exact operandStep_corresponds sameKinds tokens .none (.argument calls contexts)
      · exact .fail (.bare rfl)

theorem chainStep_corresponds (sameKinds : SameKinds paired) (tokens : paired here there)
    {one two : Node} {context other : Context} (phrases : one.Corresponds paired two)
    (contexts : context.Corresponds paired other) :
    Step.Corresponds paired here there (chainStep one context here)
      (chainStep two other there) := by
  cases contexts with
  | whole extent assigned =>
      rw [chainStep, chainStep, sameKinds _ _ tokens]
      split
      · exact .more (.operand (.some ⟨phrases, tokens⟩) (.whole extent assigned))
      · split
        · exact .more
            (.operand .none (.whole extent (.some ⟨join_corresponds assigned phrases, tokens⟩)))
        · exact .done (join_corresponds assigned phrases)
  | argument calls outers =>
      rw [chainStep, chainStep, sameKinds _ _ tokens]
      split
      · exact .more (.operand (.some ⟨phrases, tokens⟩) (.argument calls outers))
      · exact betweenStep_corresponds sameKinds tokens false (calls.push phrases) outers

namespace State.Corresponds

variable {one two : State}

/-- Corresponding tokens lead from corresponding states to corresponding ones. -/
theorem step (sameKinds : SameKinds paired) (states : one.Corresponds paired two)
    (tokens : paired here there) :
    Step.Corresponds paired here there (one.step here) (two.step there) := by
  cases states with
  | operand waiting contexts => exact operandStep_corresponds sameKinds tokens waiting contexts
  | named names waiting contexts =>
      rw [State.step, State.step, sameKinds _ _ tokens]
      split
      · exact .more (.between true ⟨waiting, names, .nil⟩ contexts)
      · exact chainStep_corresponds sameKinds tokens (join_corresponds waiting (.leaf names))
          contexts
  | chain phrases contexts => exact chainStep_corresponds sameKinds tokens phrases contexts
  | between expecting calls contexts =>
      exact betweenStep_corresponds sameKinds tokens expecting calls contexts

theorem finishChain {phrase other : Node} {context outside : Context} {here? there? : Option Token}
    (phrases : phrase.Corresponds paired other) (contexts : context.Corresponds paired outside) :
    OutcomesCorrespond (Node.Corresponds paired) here? there? (State.finishChain phrase context)
      (State.finishChain other outside) := by
  cases contexts with
  | whole extent assigned => exact .ok (join_corresponds assigned phrases)
  | argument => exact .bare rfl

/-- At the end of the tokens in sight, the token behind it is named if one is missing. -/
theorem finish (states : one.Corresponds paired two) {here? there? : Option Token}
    (beyond : Option.Rel paired here? there?) :
    OutcomesCorrespond (Node.Corresponds paired) here? there? (one.finish here?)
      (two.finish there?) := by
  cases states with
  | operand waiting contexts =>
      cases beyond with
      | none => exact .bare rfl
      | some tokens => exact .error (.unsupportedFactor _ _)
  | named names waiting contexts =>
      exact finishChain (join_corresponds waiting (.leaf names)) contexts
  | chain phrases contexts => exact finishChain phrases contexts
  | between => exact .bare rfl

/-- Corresponding tokens are read in the same way from corresponding states. -/
theorem run (sameKinds : SameKinds paired) (states : one.Corresponds paired two)
    {tokens others : List Token} (each : List.Forall₂ paired tokens others) (bound position : Nat) :
    Reply.Corresponds paired (Node.Corresponds paired) (one.run bound position tokens)
      (two.run bound position others) := by
  induction each generalizing one two position with
  | nil => exact ⟨⟨rfl, .nil, rfl⟩, states.finish .none⟩
  | @cons here there rest behind tokens later ih =>
      have cursors : (⟨position, here :: rest, bound⟩ : Cursor).Corresponds paired
          ⟨position, there :: behind, bound⟩ := ⟨rfl, .cons tokens later, rfl⟩
      rw [State.run, State.run]
      split
      · have steps := states.step sameKinds tokens
        generalize one.step here = first at steps ⊢
        generalize two.step there = second at steps ⊢
        cases steps with
        | more next => exact ih next (position + 1)
        | done phrases => exact ⟨cursors, .ok phrases⟩
        | fail causes => exact ⟨cursors, .error causes⟩
      · exact ⟨cursors, states.finish (.some tokens)⟩

end State.Corresponds

end

end Phrase

namespace Cursor.Corresponds

variable {paired : Token → Token → Prop} {one two : Cursor}

/-- Phrases of every extent are read in the same way at corresponding cursors. -/
theorem read (sameKinds : SameKinds paired) (cursors : one.Corresponds paired two)
    (extent : Phrase.Extent) :
    Reply.Corresponds paired (Node.Corresponds paired) (Phrase.read extent one)
      (Phrase.read extent two) := by
  have start : (Phrase.State.initial extent).Corresponds paired (.initial extent) :=
    .operand .none (.whole extent .none)
  rw [Phrase.read, Phrase.read, cursors.position_eq, cursors.bound_eq]
  exact start.run sameKinds cursors.rest two.bound two.position

/-!
### Declarations
-/

theorem parameters (sameKinds : SameKinds paired) (cursors : one.Corresponds paired two)
    (expecting : Bool) :
    Reply.Corresponds paired (List.Forall₂ paired) (one.parameters expecting)
      (two.parameters expecting) := by
  fun_induction Cursor.parameters expecting one generalizing two with
  | case1 expecting one unseen =>
      rw [parameters_eq expecting two, cursors.peek?_eq_none unseen]
      exact .bare cursors rfl
  | case2 expecting one here seen closing =>
      obtain ⟨there, seenToo, tokens⟩ := cursors.peek?_eq_some seen
      rw [sameKinds _ _ tokens] at closing
      rw [parameters_eq expecting two, seenToo]
      simp only [if_pos closing]
      exact ⟨cursors.advance, .ok .nil⟩
  | case3 expecting one here seen notClosing comma ih =>
      obtain ⟨there, seenToo, tokens⟩ := cursors.peek?_eq_some seen
      rw [sameKinds _ _ tokens] at notClosing comma
      rw [parameters_eq expecting two, seenToo]
      simp only [if_neg notClosing, if_pos comma]
      exact ih cursors.advance
  | case4 expecting one here seen notClosing notComma adjacent =>
      obtain ⟨there, seenToo, tokens⟩ := cursors.peek?_eq_some seen
      rw [sameKinds _ _ tokens] at notClosing notComma
      rw [parameters_eq expecting two, seenToo]
      simp only [if_neg notClosing, if_neg notComma, if_pos adjacent]
      exact .bare cursors rfl
  | case5 expecting one here seen notClosing notComma expected typed ih =>
      obtain ⟨there, seenToo, tokens⟩ := cursors.peek?_eq_some seen
      rw [sameKinds _ _ tokens] at notClosing notComma typed
      rw [parameters_eq expecting two, seenToo]
      simp only [if_neg notClosing, if_neg notComma, if_neg expected, if_pos typed]
      exact (ih (cursors.advance.skip sameKinds .identifier)).map fun _ _ later =>
        .cons tokens later
  | case6 expecting one here seen notClosing notComma expected untyped =>
      obtain ⟨there, seenToo, tokens⟩ := cursors.peek?_eq_some seen
      rw [sameKinds _ _ tokens] at notClosing notComma untyped
      rw [parameters_eq expecting two, seenToo]
      simp only [if_neg notClosing, if_neg notComma, if_neg expected, if_neg untyped]
      exact .bare cursors rfl

theorem functionDeclaration (sameKinds : SameKinds paired) (cursors : one.Corresponds paired two)
    {type other name also : Token} (types : paired type other) (names : paired name also) :
    Reply.Corresponds paired (Node.Corresponds paired) (one.functionDeclaration type name)
      (two.functionDeclaration other also) := by
  rw [Cursor.functionDeclaration, Cursor.functionDeclaration, cursors.any_peek?_eq sameKinds]
  split
  · exact (cursors.advance.parameters sameKinds true).map fun _ _ each =>
      .functionDeclaration names types each
  · exact .bare cursors rfl

theorem declaration (sameKinds : SameKinds paired) (cursors : one.Corresponds paired two)
    {type other : Token} (types : paired type other) :
    Reply.Corresponds paired (Node.Corresponds paired) (one.declaration type)
      (two.declaration other) := by
  have behindType := head?_corresponds cursors.advance.rest
  rw [Cursor.declaration, Cursor.declaration, sameKinds.any_eq cursors.visible]
  generalize one.advance.rest.head? = here at behindType ⊢
  generalize two.advance.rest.head? = there at behindType ⊢
  cases behindType with
  | none => exact .bare cursors rfl
  | some names =>
      simp only [sameKinds _ _ names]
      split
      · exact .bare cursors rfl
      · split
        · exact cursors.advance.advance.functionDeclaration sameKinds types names
        · exact ⟨cursors.advance.advance, .ok (.variableDeclaration names types)⟩

end Cursor.Corresponds

/-!
### Statements

The check of an assignment goes back to the tokens that were read.  It looks at their classes only.
-/

theorem checkAssignment_eq {span other : List Token}
    (sameKinds : span.map (·.kind) = other.map (·.kind)) :
    checkAssignment span = checkAssignment other := by
  have before : ∀ tokens : List Token, (tokens.takeWhile (·.kind ≠ .assign)).map (·.kind) =
      (tokens.map (·.kind)).takeWhile (· ≠ .assign) := by
    intro tokens
    rw [List.takeWhile_map]
    rfl
  have same : (span.takeWhile (·.kind ≠ .assign)).map (·.kind) =
      (other.takeWhile (·.kind ≠ .assign)).map (·.kind) := by
    rw [before, before, sameKinds]
  rw [checkAssignment, checkAssignment]
  generalize span.takeWhile (·.kind ≠ .assign) = left at same ⊢
  generalize other.takeWhile (·.kind ≠ .assign) = right at same ⊢
  rcases left with - | ⟨first, - | ⟨second, more⟩⟩ <;>
    rcases right with - | ⟨also, - | ⟨next, later⟩⟩
  case nil.nil => rfl
  case cons.nil.cons.nil =>
      rw [List.map_singleton, List.map_singleton, List.singleton_inj] at same
      simp only [same]
  case cons.cons.cons.cons =>
      obtain ⟨sameFirst, sameRest⟩ := List.cons.inj same
      have sameLast := congrArg List.getLast? sameRest
      rw [List.getLast?_map, List.getLast?_map, List.getLast?_eq_some_getLast (List.cons_ne_nil _ _),
        List.getLast?_eq_some_getLast (List.cons_ne_nil _ _)] at sameLast
      simp only [sameFirst, Option.some.inj sameLast]
  all_goals simp at same

/-- The check names no token. -/
theorem checkAssignment_nameless {span : List Token} {cause : GrammarError}
    (refused : checkAssignment span = .error cause) : cause.namesToken = false := by
  unfold checkAssignment at refused
  split at refused
  · split at refused
    · cases refused
      rfl
    · split at refused
      · cases refused
        rfl
      · cases refused
  · split at refused
    · cases refused
      rfl
    · cases refused
  · cases refused
    rfl

/-- Roots that correspond are of one class. -/
theorem Node.Corresponds.token_kind_eq {paired : Token → Token → Prop}
    (sameKinds : SameKinds paired) {one two : Node} (nodes : one.Corresponds paired two) :
    one.token.kind = two.token.kind := by
  cases nodes with
  | leaf tokens => exact sameKinds _ _ tokens
  | call => rfl
  | operation operators => exact sameKinds _ _ operators
  | variableDeclaration names => exact sameKinds _ _ names
  | functionDeclaration names => exact sameKinds _ _ names
  | block tokens => exact sameKinds _ _ tokens

namespace Cursor.Corresponds

variable {paired : Token → Token → Prop} {one two : Cursor}

theorem asStatement (sameKinds : SameKinds paired) {span other : List Token}
    (spans : List.Forall₂ paired span other) {node also : Node}
    (nodes : node.Corresponds paired also) {here? there? : Option Token} :
    OutcomesCorrespond (Node.Corresponds paired) here? there? (Cursor.asStatement span node)
      (Cursor.asStatement other also) := by
  rw [Cursor.asStatement, Cursor.asStatement, nodes.token_kind_eq sameKinds,
    checkAssignment_eq (sameKinds.map_kind_eq spans)]
  split
  · cases checked : checkAssignment other with
    | error cause => exact .bare (checkAssignment_nameless checked)
    | ok _ => exact .ok nodes
  · split
    · exact .ok nodes
    · exact .bare rfl

theorem expressionStatement (sameKinds : SameKinds paired) (cursors : one.Corresponds paired two) :
    Reply.Corresponds paired (Node.Corresponds paired) one.expressionStatement
      two.expressionStatement := by
  obtain ⟨finishes, outcomes⟩ := cursors.read sameKinds .expression
  have spans := List.forall₂_take
    ((Phrase.read .expression two).cursor.position - two.position) cursors.rest
  rw [Cursor.expressionStatement, Cursor.expressionStatement, Cursor.expression, Cursor.expression]
  refine ⟨finishes, ?_⟩
  dsimp only
  rw [finishes.position_eq, cursors.position_eq]
  generalize (Phrase.read .expression one).outcome = first at outcomes ⊢
  generalize (Phrase.read .expression two).outcome = second at outcomes ⊢
  cases outcomes with
  | ok nodes => exact asStatement sameKinds spans nodes
  | error causes => exact .error causes

theorem statementBody (sameKinds : SameKinds paired) (cursors : one.Corresponds paired two) :
    Reply.Corresponds paired (Node.Corresponds paired) one.statementBody two.statementBody := by
  have seen := cursors.peek?
  rw [Cursor.statementBody, Cursor.statementBody]
  generalize one.peek? = here at seen ⊢
  generalize two.peek? = there at seen ⊢
  cases seen with
  | none => exact cursors.expressionStatement sameKinds
  | some tokens =>
      simp only [sameKinds _ _ tokens]
      split
      · exact cursors.declaration sameKinds tokens
      · exact cursors.expressionStatement sameKinds

/-- A semicolon behind one statement is behind the other one too. -/
theorem terminated (sameKinds : SameKinds paired) {first second : Reply Node}
    (replies : Reply.Corresponds paired (Node.Corresponds paired) first second) :
    Reply.Corresponds paired (Node.Corresponds paired) (Cursor.terminated first)
      (Cursor.terminated second) := by
  rcases first with ⟨outcome, position, rest, bound⟩
  rcases second with ⟨other, also, others, limit⟩
  obtain ⟨finishes, outcomes⟩ := replies
  have sameRest := finishes.rest
  dsimp only at outcomes sameRest
  rw [Cursor.terminated, Cursor.terminated]
  dsimp only
  cases outcomes with
  | error causes => exact ⟨finishes, .error causes⟩
  | ok nodes =>
      cases sameRest with
      | nil => exact .bare finishes rfl
      | cons tokens _ =>
          simp only [sameKinds _ _ tokens]
          split
          · exact ⟨finishes.advance, .ok nodes⟩
          · exact .bare finishes rfl

/-- Statements are read in the same way at corresponding cursors. -/
theorem statement (sameKinds : SameKinds paired) (cursors : one.Corresponds paired two) :
    Reply.Corresponds paired (Node.Corresponds paired) one.statement two.statement := by
  have bodies := (cursors.withBound two.semicolonIndex).statementBody sameKinds
  rw [Cursor.statement, Cursor.statement, cursors.semicolonIndex_eq sameKinds, cursors.bound_eq]
  exact terminated sameKinds ⟨bodies.cursor.withBound two.bound, bodies.outcome⟩

/-- And so are programs. -/
theorem program (sameKinds : SameKinds paired) (one : Cursor) :
    ∀ {two : Cursor}, one.Corresponds paired two →
      Reply.Corresponds paired (List.Forall₂ (Node.Corresponds paired)) one.program
        two.program := by
  fun_induction Cursor.program one with
  | case1 one ended =>
      intro two cursors
      rw [cursors.atEnd_eq] at ended
      rw [program_eq two, if_pos ended]
      exact ⟨cursors, .ok .nil⟩
  | case2 one unended reply cause =>
      rename_i failed
      intro two cursors
      obtain ⟨finishes, outcomes⟩ := cursors.statement sameKinds
      rw [cursors.atEnd_eq] at unended
      rw [failed] at outcomes
      rw [program_eq two, if_neg unended]
      generalize two.statement.outcome = other at outcomes ⊢
      cases outcomes with
      | error causes => exact ⟨finishes, .error causes⟩
  | case3 one unended reply node read =>
      rename_i ih
      intro two cursors
      obtain ⟨finishes, outcomes⟩ := cursors.statement sameKinds
      rw [cursors.atEnd_eq] at unended
      rw [read] at outcomes
      rw [program_eq two, if_neg unended]
      generalize two.statement.outcome = other at outcomes ⊢
      cases outcomes with
      | ok nodes => exact (ih finishes).map fun _ _ later => .cons nodes later

end Cursor.Corresponds

end CLike
