/-
Module: CLike.Proofs.SameKinds
Layer: Proofs
Purpose: Nothing but the classes of the tokens drives the parser: two sessions over tokens of the
  same classes go the same way, call by call, whatever values and places their tokens have.
Main exports: SamePlace, Session.Product.Corresponds, Session.Turn.Agrees, Session.Turn.SameAnswer,
  Session.Corresponds.run, Session.run_of_same_kinds
-/
import CLike.Proofs.Correspondence
import CLike.Proofs.History

namespace CLike

/-- The tokens stand at the same index of the two lists. -/
def SamePlace (one two : List Token) (here there : Token) : Prop :=
  ∃ index : Nat, one[index]? = some here ∧ two[index]? = some there

namespace SamePlace

variable {one two : List Token}

/-- Where two lists have the same classes, tokens at the same index are of one class. -/
theorem sameKinds (same : one.map (·.kind) = two.map (·.kind)) : SameKinds (SamePlace one two) := by
  rintro here there ⟨index, inOne, inTwo⟩
  have sameIndex := congrArg (·[index]?) same
  simpa [inOne, inTwo] using sameIndex

/-- Lists of one length correspond token by token. -/
theorem forall₂ (sameLength : one.length = two.length) :
    List.Forall₂ (SamePlace one two) one two := by
  refine List.forall₂_iff_get.mpr ⟨sameLength, fun index inOne inTwo => ⟨index, ?_, ?_⟩⟩
  · exact List.getElem?_eq_getElem inOne
  · exact List.getElem?_eq_getElem inTwo

/-- In lists that are alike, tokens at the same index are. -/
theorem beq (alike : (one == two) = true) {here there : Token}
    (place : SamePlace one two here there) : (here == there) = true := by
  obtain ⟨index, inOne, inTwo⟩ := place
  have same := congrArg (·[index]?) (Token.beq_iff_map_unplaced_eq.mp alike)
  rw [Token.beq_iff_unplaced_eq]
  simpa [inOne, inTwo] using same

end SamePlace

namespace Session

/-- Products of the same form, with trees that correspond. -/
inductive Product.Corresponds (paired : Token → Token → Prop) : Product → Product → Prop where
  | node {one two : Node} (trees : one.Corresponds paired two) :
      Corresponds paired (.node one) (.node two)
  | nodes {some others : List Node} (each : List.Forall₂ (Node.Corresponds paired) some others) :
      Corresponds paired (.nodes some) (.nodes others)
  | nothing : Corresponds paired .nothing .nothing

/-- Two sessions whose cursors correspond, the kept ones included. -/
structure Corresponds (paired : Token → Token → Prop) (one two : Session) : Prop where
  cursor : one.cursor.Corresponds paired two.cursor
  kept : one.kept.Corresponds paired two.kept

/-- Two turns over two lists of tokens that differ in nothing but the values and places of tokens.
The cursors come to the same position.  Both calls succeed, with trees of the same shape and tokens
from the same indices, or both fail, with the same error.  An error that names a token names in each
turn the one at the position of the cursor. -/
structure Turn.Agrees (one two : List Token) (first second : Turn) : Prop where
  position_eq : first.session.cursor.position = second.session.cursor.position
  atEnd_eq : first.session.cursor.atEnd = second.session.cursor.atEnd
  outcome : OutcomesCorrespond (Product.Corresponds (SamePlace one two))
    one[first.session.cursor.position]? two[second.session.cursor.position]? first.outcome
    second.outcome

/-- Products with trees that are equal and written alike. -/
inductive Product.Alike : Product → Product → Prop where
  | node {one two : Node} (trees : (one == two) = true) (dumps : one.dump = two.dump) :
      Alike (.node one) (.node two)
  | nodes {some others : List Node} (trees : (some == others) = true)
      (dumps : some.map Node.dump = others.map Node.dump) : Alike (.nodes some) (.nodes others)
  | nothing : Alike .nothing .nothing

/-- Two turns with the same error, or with products that are alike. -/
inductive Turn.SameAnswer : Turn → Turn → Prop where
  | ok {one two : Product} {first second : Session} (products : one.Alike two) :
      SameAnswer ⟨.ok one, first⟩ ⟨.ok two, second⟩
  | error {cause : GrammarError} {first second : Session} :
      SameAnswer ⟨.error cause, first⟩ ⟨.error cause, second⟩

section

variable {paired : Token → Token → Prop} {first second : Session}

/-- The turn of a reading that goes the same way in both sessions. -/
theorem Corresponds.take {α : Type} {related : α → α → Prop} {product : α → Product}
    (sessions : first.Corresponds paired second) {here there : Reply α}
    (replies : Reply.Corresponds paired related here there)
    (produced : ∀ one two, related one two → (product one).Corresponds paired (product two)) :
    (first.take product here).session.Corresponds paired (second.take product there).session ∧
      OutcomesCorrespond (Product.Corresponds paired) here.cursor.rest.head? there.cursor.rest.head?
        (first.take product here).outcome (second.take product there).outcome :=
  ⟨⟨replies.cursor, sessions.kept⟩, replies.outcome.map produced⟩

/-- Every call goes the same way in both sessions. -/
theorem Corresponds.perform (sameKinds : SameKinds paired)
    (sessions : first.Corresponds paired second) (call : Call) :
    (first.perform call).session.Corresponds paired (second.perform call).session ∧
      OutcomesCorrespond (Product.Corresponds paired)
        (first.perform call).session.cursor.rest.head?
        (second.perform call).session.cursor.rest.head?
        (first.perform call).outcome (second.perform call).outcome := by
  have cursors := sessions.cursor
  have phrase := cursors.read sameKinds
  cases call with
  | statement => exact sessions.take (cursors.statement sameKinds) fun _ _ => .node
  | expression => exact sessions.take (phrase .expression) fun _ _ => .node
  | arithmetic => exact sessions.take (phrase .arithmetic) fun _ _ => .node
  | factor => exact sessions.take (phrase .factor) fun _ _ => .node
  | program => exact sessions.take (Cursor.Corresponds.program sameKinds _ cursors) fun _ _ => .nodes
  | save => exact ⟨⟨cursors, cursors⟩, .ok .nothing⟩
  | restore => exact ⟨⟨sessions.kept, sessions.kept⟩, .ok .nothing⟩

end

/-- The token at the cursor of a session is the one at its position in the list. -/
theorem Reached.head?_rest {tokens : List Token} {session : Session}
    (reached : Reached tokens session) :
    session.cursor.rest.head? = tokens[session.cursor.position]? := by
  rw [reached.settled.1.rest_eq, List.head?_drop]

section

variable {one two : List Token} {first second : Session}

/-- The turns of two sessions agree, call by call. -/
theorem Corresponds.run (sameKinds : SameKinds (SamePlace one two))
    (sessions : first.Corresponds (SamePlace one two) second) (reached : Reached one first)
    (reachedToo : Reached two second) (calls : List Call) :
    List.Forall₂ (Turn.Agrees one two) (first.run calls) (second.run calls) := by
  induction calls generalizing first second with
  | nil => exact .nil
  | cons call later ih =>
      obtain ⟨next, outcomes⟩ := sessions.perform sameKinds call
      have reachedNext := reached.perform call
      have reachedNextToo := reachedToo.perform call
      rw [reachedNext.head?_rest, reachedNextToo.head?_rest] at outcomes
      exact .cons ⟨next.cursor.position_eq, next.cursor.atEnd_eq, outcomes⟩
        (ih next reachedNext reachedNextToo)

/-- Turns that agree over lists of tokens that are alike give the same answer. -/
theorem Turn.Agrees.sameAnswer {turn other : Turn} (alike : (one == two) = true)
    (agree : turn.Agrees one two other) : turn.SameAnswer other := by
  have likeness : ∀ here there, SamePlace one two here there → (here == there) = true :=
    fun _ _ => SamePlace.beq alike
  rcases turn with ⟨outcome, session⟩
  rcases other with ⟨outcomeToo, sessionToo⟩
  obtain ⟨samePosition, -, outcomes⟩ := agree
  dsimp only at samePosition outcomes
  cases outcomes with
  | ok products =>
      refine .ok ?_
      cases products with
      | node trees =>
          have likened : Node.Likened _ _ := trees.mono likeness
          exact .node likened.alike likened.dump_eq
      | nodes each =>
          have likened : List.Forall₂ Node.Likened _ _ := each.imp fun _ _ => .mono likeness
          exact .nodes (list_beq_iff_forall₂.mpr (likened.imp fun _ _ => Node.Likened.alike))
            (map_eq_of_forall₂ (likened.imp fun _ _ => Node.Likened.dump_eq))
      | nothing => exact .nothing
  | error causes =>
      rw [← samePosition] at causes
      generalize ahead : one[session.cursor.position]? = here? at causes
      generalize aheadToo : two[session.cursor.position]? = there? at causes
      cases causes with
      | unsupportedFactor here there =>
          rw [Token.text_eq_of_beq (likeness here there ⟨_, ahead, aheadToo⟩)]
          exact .error
      | bare => exact .error

end

/-- Only the classes of tokens count.  Over two lists with the same classes at the same indices, any
calls go the same way, call by call: the positions are the same, results and errors come at the same
calls, the errors are the same up to the text of the token that each names, and the trees have the
same shape with tokens from the same indices.  Over lists that are alike, all answers are. -/
theorem run_of_same_kinds {one two : List Token}
    (same : one.map (·.kind) = two.map (·.kind)) (calls : List Call) :
    List.Forall₂ (Turn.Agrees one two) ((ofTokens one).run calls) ((ofTokens two).run calls) ∧
      ((one == two) = true →
        List.Forall₂ Turn.SameAnswer ((ofTokens one).run calls) ((ofTokens two).run calls)) := by
  have sameLength : one.length = two.length := by
    simpa using congrArg List.length same
  have start : (Cursor.ofTokens one).Corresponds (SamePlace one two) (.ofTokens two) :=
    ⟨rfl, SamePlace.forall₂ sameLength, sameLength⟩
  have agree := Corresponds.run (SamePlace.sameKinds same) ⟨start, start⟩ .start .start calls
  exact ⟨agree, fun alike => agree.imp fun _ _ => Turn.Agrees.sameAnswer alike⟩

/-- Values that do not fit their classes do not change the way of an assignment and of the operator
that stands alone behind it, and places do not change the answers. -/
theorem run_of_same_kinds_assignment :
    let fitting : List Token := [.identifier "a", .ofText .assign "=", .integer 5,
      .ofText .semicolon ";", .ofText .plus "+"]
    let others : List Token := [⟨.identifier, .integer 7, .unplaced⟩, .ofText .assign "(",
      ⟨.integer, .character 'x', ⟨3, 8⟩⟩, .ofText .semicolon "int", .ofText .plus "-"]
    let moved := fitting.map fun token => { token with position := ⟨2, 5⟩ }
    let calls := [.save, .statement, .factor, .restore, .program]
    let node := Node.operation (.ofText .assign "=") (.leaf (.identifier "a")) (.leaf (.integer 5))
    let otherNode := Node.operation (.ofText .assign "(")
      (.leaf ⟨.identifier, .integer 7, .unplaced⟩) (.leaf ⟨.integer, .character 'x', ⟨3, 8⟩⟩)
    ((ofTokens fitting).run calls).map (·.outcome) = [.ok .nothing, .ok (.node node),
        .error (.unsupportedFactor "+"), .ok .nothing, .error (.unsupportedFactor "+")] ∧
      ((ofTokens others).run calls).map (·.outcome) = [.ok .nothing, .ok (.node otherNode),
        .error (.unsupportedFactor "-"), .ok .nothing, .error (.unsupportedFactor "-")] ∧
      fitting.map (·.kind) = others.map (·.kind) ∧ (fitting == others) = false ∧
      List.Forall₂ (Turn.Agrees fitting others) ((ofTokens fitting).run calls)
        ((ofTokens others).run calls) ∧
      fitting.map (·.kind) = moved.map (·.kind) ∧ (fitting == moved) = true ∧
      List.Forall₂ Turn.SameAnswer ((ofTokens fitting).run calls) ((ofTokens moved).run calls) := by
  intro fitting others moved calls node otherNode
  have sameKinds : fitting.map (·.kind) = others.map (·.kind) := by decide
  have sameKindsMoved : fitting.map (·.kind) = moved.map (·.kind) := by decide
  have alike : (fitting == moved) = true := by decide
  refine ⟨?_, ?_, sameKinds, by decide, (run_of_same_kinds sameKinds calls).1, sameKindsMoved,
    alike, (run_of_same_kinds sameKindsMoved calls).2 alike⟩
  · cbv
  · cbv

end Session

end CLike
