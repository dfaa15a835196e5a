/-
Module: CLike.Proofs.Likeness
Layer: Proofs
Purpose: Tokens and trees are alike exactly when they are the same once places are forgotten, and
  nothing that is written of them shows a place.
Main exports: list_beq_iff_map_eq, list_beq_iff_forall₂, Token.beq_iff_map_unplaced_eq,
  Node.alike_iff_unplaced_eq, Node.beq_iff_map_unplaced_eq, Node.dump_unplaced, Node.ComparesParts,
  Node.beq_forgets_places
-/
import CLike.Node.Alike
import CLike.Node.Dump
import Mathlib.Data.List.Forall2

namespace CLike

/-- Where `==` forgets something about the items, it forgets the same about the items of a list. -/
theorem list_beq_iff_map_eq {α β : Type} [BEq α] {forget : α → β}
    (likeness : ∀ one two : α, (one == two) = true ↔ forget one = forget two) {one two : List α} :
    (one == two) = true ↔ one.map forget = two.map forget := by
  induction one generalizing two with
  | nil => cases two <;> simp
  | cons item one ih =>
      cases two with
      | nil => simp
      | cons other two =>
          rw [List.cons_beq_cons, Bool.and_eq_true, likeness, ih, List.map_cons, List.map_cons,
            List.cons.injEq]

/-- Lists are alike exactly when their items are, one by one. -/
theorem list_beq_iff_forall₂ {α : Type} [BEq α] {some others : List α} :
    (some == others) = true ↔ List.Forall₂ (fun one two => (one == two) = true) some others := by
  induction some generalizing others with
  | nil => cases others <;> simp
  | cons one some ih =>
      cases others with
      | nil => simp
      | cons two others =>
          rw [List.cons_beq_cons, Bool.and_eq_true, ih, List.forall₂_cons]

/-- Tokens are alike exactly when they have the same class and the same value. -/
theorem Token.beq_iff {one two : Token} :
    (one == two) = true ↔ one.kind = two.kind ∧ one.literal = two.literal := by
  rw [beq_iff_unplaced_eq]
  cases one
  cases two
  simp [unplaced]

/-- Lists of tokens are alike exactly when they are the same once places are forgotten. -/
theorem Token.beq_iff_map_unplaced_eq {one two : List Token} :
    (one == two) = true ↔ one.map Token.unplaced = two.map Token.unplaced :=
  list_beq_iff_map_eq fun _ _ => Token.beq_iff_unplaced_eq

namespace Node

theorem unplacedEach_eq_map (nodes : List Node) : unplacedEach nodes = nodes.map unplaced := by
  induction nodes with
  | nil => rfl
  | cons node nodes ih => rw [unplacedEach, ih, List.map_cons]

mutual

/-- Trees are alike exactly when they are the same once places are forgotten. -/
theorem alike_iff_unplaced_eq :
    ∀ one two : Node, alike one two = true ↔ one.unplaced = two.unplaced
  | .leaf one, two => by
      cases two <;> simp [alike, unplaced, Token.beq_iff_unplaced_eq]
  | .callNamed one arguments, two => by
      cases two <;> simp [alike, unplaced, Token.beq_iff_unplaced_eq,
        alikeEach_iff_unplacedEach_eq arguments]
  | .operation one left right, two => by
      cases two <;> simp [alike, unplaced, Token.beq_iff_unplaced_eq, alike_iff_unplaced_eq left,
        alike_iff_unplaced_eq right, and_assoc]
  | .variableDeclaration one type, two => by
      cases two <;> simp [alike, unplaced, Token.beq_iff_unplaced_eq]
  | .functionDeclaration one type parameters, two => by
      cases two <;> simp [alike, unplaced, Token.beq_iff_unplaced_eq,
        Token.beq_iff_map_unplaced_eq, and_assoc]
  | .block one statements, two => by
      cases two <;> simp [alike, unplaced, Token.beq_iff_unplaced_eq,
        alikeEach_iff_unplacedEach_eq statements]

theorem alikeEach_iff_unplacedEach_eq :
    ∀ one two : List Node, alikeEach one two = true ↔ unplacedEach one = unplacedEach two
  | [], two => by
      cases two <;> simp [alikeEach, unplacedEach]
  | one :: rest, two => by
      cases two <;> simp [alikeEach, unplacedEach, alike_iff_unplaced_eq one,
        alikeEach_iff_unplacedEach_eq rest]

end

/-- `==` on lists of trees is likeness, tree by tree. -/
theorem beq_iff_map_unplaced_eq {one two : List Node} :
    (one == two) = true ↔ one.map unplaced = two.map unplaced :=
  list_beq_iff_map_eq alike_iff_unplaced_eq

/-- To be alike is an equivalence, because it is to be the same up to something. -/
instance : EquivBEq Node where
  rfl := (alike_iff_unplaced_eq _ _).mpr rfl
  symm same := (alike_iff_unplaced_eq _ _).mpr ((alike_iff_unplaced_eq _ _).mp same).symm
  trans first second := (alike_iff_unplaced_eq _ _).mpr
    (((alike_iff_unplaced_eq _ _).mp first).trans ((alike_iff_unplaced_eq _ _).mp second))

/-!
### What is written of a tree
-/

mutual

/-- A symbolic expression shows no places. -/
theorem dump_unplaced : ∀ node : Node, node.unplaced.dump = node.dump
  | .leaf token => rfl
  | .callNamed name arguments => by
      rw [unplaced, dump, dump, dumpEach_unplacedEach arguments]
      rfl
  | .operation operator left right => by
      rw [unplaced, dump, dump, dump_unplaced left, dump_unplaced right]
      rfl
  | .variableDeclaration name type => rfl
  | .functionDeclaration name type parameters => by
      rw [unplaced, dump, dump, List.map_map]
      rfl
  | .block token statements => by
      rw [unplaced, dump, dump, dumpEach_unplacedEach statements]

theorem dumpEach_unplacedEach :
    ∀ nodes : List Node, dumpEach (unplacedEach nodes) = dumpEach nodes
  | [] => rfl
  | node :: rest => by
      rw [unplacedEach, dumpEach, dumpEach, dump_unplaced node, dumpEach_unplacedEach rest]

end

/-- Alike trees are written alike. -/
theorem dump_eq_of_beq {one two : Node} (same : (one == two) = true) : one.dump = two.dump := by
  rw [← dump_unplaced one, (alike_iff_unplaced_eq one two).mp same, dump_unplaced]

/-!
### Trees and their parts
-/

/-- A comparison of trees that goes from the parts to the whole and back.  Lists of parts are
compared one by one, so their order and their number count. -/
structure ComparesParts (Alike : Node → Node → Prop) : Prop where
  leaf {one two : Token} : Alike (.leaf one) (.leaf two) ↔ (one == two) = true
  callNamed {one two : Token} {arguments others : List Node} :
    Alike (.callNamed one arguments) (.callNamed two others) ↔
      (one == two) = true ∧ List.Forall₂ Alike arguments others
  /-- A call that is made of a name is compared by the value of the name, since the class that the
  name had is not kept. -/
  call {one two : Token} {arguments others : List Node} :
    Alike (.call one arguments) (.call two others) ↔
      one.literal = two.literal ∧ List.Forall₂ Alike arguments others
  operation {one two : Token} {left right otherLeft otherRight : Node} :
    Alike (.operation one left right) (.operation two otherLeft otherRight) ↔
      (one == two) = true ∧ Alike left otherLeft ∧ Alike right otherRight
  variableDeclaration {one two type other : Token} :
    Alike (.variableDeclaration one type) (.variableDeclaration two other) ↔
      (one == two) = true ∧ (type == other) = true
  functionDeclaration {one two type other : Token} {parameters others : List Token} :
    Alike (.functionDeclaration one type parameters) (.functionDeclaration two other others) ↔
      (one == two) = true ∧ (type == other) = true ∧
        List.Forall₂ (fun here there => (here == there) = true) parameters others
  block {one two : Token} {statements others : List Node} :
    Alike (.block one statements) (.block two others) ↔
      (one == two) = true ∧ List.Forall₂ Alike statements others

/-- Lists of trees are compared one by one. -/
theorem alikeEach_iff_forall₂ {some others : List Node} :
    alikeEach some others = true ↔
      List.Forall₂ (fun one two => (one == two) = true) some others := by
  rw [alikeEach_iff_unplacedEach_eq, unplacedEach_eq_map, unplacedEach_eq_map,
    ← beq_iff_map_unplaced_eq, list_beq_iff_forall₂]

theorem comparesParts : ComparesParts fun one two => (one == two) = true where
  leaf := .rfl
  callNamed := by
    intro one two arguments others
    change (one == two && alikeEach arguments others) = true ↔ _
    rw [Bool.and_eq_true, alikeEach_iff_forall₂]
  call := by
    intro one two arguments others
    change (({ one with kind := .call } : Token) == { two with kind := .call } &&
      alikeEach arguments others) = true ↔ _
    rw [Bool.and_eq_true, Token.beq_iff, alikeEach_iff_forall₂]
    simp
  operation := by
    intro one two left right otherLeft otherRight
    change (one == two && alike left otherLeft && alike right otherRight) = true ↔ _
    rw [Bool.and_eq_true, Bool.and_eq_true, and_assoc]
    rfl
  variableDeclaration := by
    intro one two type other
    change (one == two && type == other) = true ↔ _
    rw [Bool.and_eq_true]
  functionDeclaration := by
    intro one two type other parameters others
    change (one == two && type == other && parameters == others) = true ↔ _
    rw [Bool.and_eq_true, Bool.and_eq_true, and_assoc, list_beq_iff_forall₂]
  block := by
    intro one two statements others
    change (one == two && alikeEach statements others) = true ↔ _
    rw [Bool.and_eq_true, alikeEach_iff_forall₂]

/-- `==` on trees forgets the places of all tokens, at every depth, and nothing else.  So it is an
equivalence, two trees of one shape are alike exactly if their tokens and parts are, and trees that
are alike have the same symbolic expression. -/
theorem beq_forgets_places :
    (∀ one two : Node, (one == two) = true ↔ one.unplaced = two.unplaced) ∧
      Equivalence (fun one two : Node => (one == two) = true) ∧
      ComparesParts (fun one two => (one == two) = true) ∧
      ∀ one two : Node, (one == two) = true → one.dump = two.dump :=
  ⟨alike_iff_unplaced_eq, ⟨BEq.refl, PartialEquivBEq.symm, PartialEquivBEq.trans⟩, comparesParts,
    fun _ _ => dump_eq_of_beq⟩

/-- A call with its arguments at other places, in another order, and without one of them, and a
call whose token has the class of a name.  The last one is written like the first. -/
theorem beq_forgets_places_arguments :
    let one := call (.identifier "f") [.leaf (.integer 1), .leaf ⟨.string, .text "b", ⟨1, 5⟩⟩]
    let moved := call ⟨.identifier, .text "f", ⟨4, 2⟩⟩
      [.leaf (.integer 1), .leaf (.ofText .string "b")]
    let turned := call (.identifier "f") [.leaf (.ofText .string "b"), .leaf (.integer 1)]
    let fewer := call (.identifier "f") [.leaf (.integer 1)]
    let renamed := callNamed (.identifier "f")
      [.leaf (.integer 1), .leaf ⟨.string, .text "b", ⟨1, 5⟩⟩]
    one.unplaced = moved.unplaced ∧ (one == moved) = true ∧ one.dump = moved.dump ∧
      one.unplaced ≠ turned.unplaced ∧ (one == turned) = false ∧
      one.unplaced ≠ fewer.unplaced ∧ (one == fewer) = false ∧
      one.dump = renamed.dump ∧ one.unplaced ≠ renamed.unplaced ∧ (one == renamed) = false := by
  intro one moved turned fewer renamed
  obtain ⟨unplaced, -, -, written⟩ := beq_forgets_places
  have differs : ∀ {other : Node}, (one == other) = false → one.unplaced ≠ other.unplaced :=
    fun {other} unlike => mt (unplaced one other).mpr (Bool.eq_false_iff.mp unlike)
  have alike : (one == moved) = true := by decide
  have unlikeTurned : (one == turned) = false := by decide
  have unlikeFewer : (one == fewer) = false := by decide
  have unlikeRenamed : (one == renamed) = false := by decide
  exact ⟨(unplaced one moved).mp alike, alike, written one moved alike,
    differs unlikeTurned, unlikeTurned, differs unlikeFewer, unlikeFewer,
    rfl, differs unlikeRenamed, unlikeRenamed⟩

end Node

end CLike
