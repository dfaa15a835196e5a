/-
Module: CLike.Proofs.Nesting
Layer: Proofs
Purpose: Lists in which every scope that is opened is closed again, and the end of the first scope
  of a longer list.
Main exports: first_cut_unique, Balanced, Balanced.append, Balanced.unique
-/

namespace CLike

/-- Where a list is cut at its first item of some kind, there is no choice. -/
theorem first_cut_unique {α : Type} {Marked : α → Prop} {lead other rest behind : List α}
    {first next : α} (same : lead ++ first :: rest = other ++ next :: behind)
    (clean : ∀ item ∈ lead, ¬Marked item) (marked : Marked first)
    (cleanOther : ∀ item ∈ other, ¬Marked item) (markedNext : Marked next) :
    lead = other ∧ first = next ∧ rest = behind := by
  induction lead generalizing other with
  | nil =>
      cases other with
      | nil => exact ⟨rfl, List.cons.inj same⟩
      | cons item other =>
          obtain rfl := (List.cons.inj same).1
          exact absurd marked (cleanOther first List.mem_cons_self)
  | cons item lead ih =>
      obtain ⟨noMark, cleanLead⟩ := List.forall_mem_cons.mp clean
      cases other with
      | nil =>
          obtain rfl := (List.cons.inj same).1
          exact absurd markedNext noMark
      | cons item other =>
          obtain ⟨rfl, later⟩ := List.cons.inj same
          obtain ⟨rfl, parts⟩ := ih later cleanLead (List.forall_mem_cons.mp cleanOther).2
          exact ⟨rfl, parts⟩

/-- Every opening item is closed by an item of its own, and scopes lie inside or behind each
other. -/
inductive Balanced {α : Type} (Opens Closes : α → Prop) : List α → Prop where
  | nil : Balanced Opens Closes []
  | plain {item : α} {rest : List α} (noOpening : ¬Opens item) (noClosing : ¬Closes item)
      (more : Balanced Opens Closes rest) : Balanced Opens Closes (item :: rest)
  | scope {opening closing : α} {inside rest : List α} (opens : Opens opening)
      (within : Balanced Opens Closes inside) (closes : Closes closing)
      (more : Balanced Opens Closes rest) :
      Balanced Opens Closes (opening :: (inside ++ closing :: rest))

namespace Balanced

variable {α : Type} {Opens Closes : α → Prop}

theorem append {first second : List α} (one : Balanced Opens Closes first)
    (two : Balanced Opens Closes second) : Balanced Opens Closes (first ++ second) := by
  induction one with
  | nil => exact two
  | plain noOpening noClosing _ ih => exact .plain noOpening noClosing ih
  | scope opens within closes _ _ ih =>
      rw [List.cons_append, List.append_assoc, List.cons_append]
      exact .scope opens within closes ih

/-- No scope is closed that was not opened before. -/
theorem not_closes_head (apart : ∀ item, Opens item → ¬Closes item) {item : α} {rest : List α}
    (balanced : Balanced Opens Closes (item :: rest)) : ¬Closes item := by
  cases balanced with
  | plain _ noClosing => exact noClosing
  | scope opens => exact apart item opens

/-- The item that closes a scope is the first one behind a balanced list, and there is only one such
item. -/
theorem unique (apart : ∀ item, Opens item → ¬Closes item)
    {first second behindFirst behindSecond : List α} {one two : α}
    (balanced : Balanced Opens Closes first) (other : Balanced Opens Closes second)
    (closes : Closes one) (closesToo : Closes two)
    (same : first ++ one :: behindFirst = second ++ two :: behindSecond) : first = second := by
  induction balanced generalizing second one two behindFirst behindSecond with
  | nil =>
      cases second with
      | nil => rfl
      | cons item rest =>
          obtain rfl : one = item := (List.cons.inj same).1
          exact absurd closes (other.not_closes_head apart)
  | @plain item rest noOpening noClosing more ih =>
      cases other with
      | nil =>
          obtain rfl : item = two := (List.cons.inj same).1
          exact absurd closesToo noClosing
      | plain noOpeningToo noClosingToo moreToo =>
          obtain ⟨rfl, later⟩ := List.cons.inj same
          exact congrArg (item :: ·) (ih moreToo closes closesToo later)
      | scope opens =>
          obtain rfl := (List.cons.inj same).1
          exact absurd opens noOpening
  | @scope opening closing inside rest opens within scopeCloses more ihWithin ih =>
      cases other with
      | nil =>
          obtain rfl : opening = two := (List.cons.inj same).1
          exact absurd closesToo (apart opening opens)
      | plain noOpening =>
          obtain rfl := (List.cons.inj same).1
          exact absurd opens noOpening
      | scope opensToo withinToo scopeClosesToo moreToo =>
          simp only [List.cons_append, List.append_assoc, List.cons.injEq] at same
          obtain ⟨rfl, later⟩ := same
          obtain rfl := ihWithin withinToo scopeCloses scopeClosesToo later
          obtain ⟨rfl, behind⟩ := List.cons.inj (List.append_cancel_left later)
          rw [ih moreToo closes closesToo behind]

end Balanced

end CLike
