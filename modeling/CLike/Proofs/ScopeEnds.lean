/-
Module: CLike.Proofs.ScopeEnds
Layer: Proofs
Purpose: The end of the first scope is where the grammar of balanced lists has it, and a search that
  fails tells what is missing.
Main exports: Unwinds, scopeEndFrom_balanced, exists_unwinds, ScopeCut, ScopeCut.Fits,
  scopeEnd_first_scope, Descends, exists_descends, scopeEnd_failures
-/
import CLike.Proofs.Nesting
import CLike.Scope

namespace CLike

/-!
### Steps

Items are compared with `==`, which need not tell apart all that are different.  What matters is
that no item is both delimiters at once.
-/

theorem map_add_map_add (result : Except ScopeError Nat) (one two : Nat) :
    (result.map (· + one)).map (· + two) = result.map (· + (one + two)) := by
  cases result with
  | error cause => rfl
  | ok place => exact congrArg Except.ok (Nat.add_assoc place one two)

theorem map_add_zero (result : Except ScopeError Nat) : result.map (· + 0) = result := by
  cases result with
  | error cause => rfl
  | ok place => rfl

theorem map_add_eq_ok_iff {result : Except ScopeError Nat} {distance place : Nat} :
    result.map (· + distance) = .ok place ↔
      ∃ before, result = .ok before ∧ before + distance = place := by
  cases result with
  | error cause => simp [Except.map]
  | ok before => simp [Except.map]

theorem map_add_eq_error_iff {result : Except ScopeError Nat} {distance : Nat}
    {cause : ScopeError} :
    result.map (· + distance) = .error cause ↔ result = .error cause := by
  cases result with
  | error other => simp [Except.map]
  | ok place => simp [Except.map]

section

variable {α : Type} [BEq α] {opening closing item : α}

/-- The item is neither delimiter. -/
def IsPlain (opening closing item : α) : Prop :=
  (item == opening) = false ∧ (item == closing) = false

theorem scopeEndFrom_opening (opens : (item == opening) = true) (depth : Nat) (rest : List α) :
    scopeEndFrom opening closing depth (item :: rest) =
      (scopeEndFrom opening closing (depth + 1) rest).map (· + 1) := by
  simp [scopeEndFrom, opens]

theorem scopeEndFrom_plain (plain : IsPlain opening closing item) (depth : Nat) (rest : List α) :
    scopeEndFrom opening closing depth (item :: rest) =
      (scopeEndFrom opening closing depth rest).map (· + 1) := by
  simp [scopeEndFrom, plain.1, plain.2]

/-- A closing item ends the innermost scope, if there is one. -/
theorem scopeEndFrom_closing (noOpening : (item == opening) = false)
    (closes : (item == closing) = true) (depth : Nat) (rest : List α) :
    scopeEndFrom opening closing depth (item :: rest) =
      match depth with
      | 0 => .error .unopened
      | 1 => .ok 0
      | outer + 2 => (scopeEndFrom opening closing (outer + 1) rest).map (· + 1) := by
  simp only [scopeEndFrom, noOpening, closes]
  rfl

theorem noOpening_of_closes [PartialEquivBEq α] (apart : (opening == closing) = false)
    (closes : (item == closing) = true) : (item == opening) = false := by
  apply Bool.eq_false_iff.mpr
  intro opens
  have same : (opening == closing) = true :=
    PartialEquivBEq.trans (PartialEquivBEq.symm opens) closes
  rw [apart] at same
  cases same

/-!
### Balanced lists in sight of an open scope

A scan passes them with as many scopes open as before.
-/

theorem scopeEndFrom_balanced [PartialEquivBEq α] (apart : (opening == closing) = false)
    {inside : List α} (balanced : Balanced (· == opening) (· == closing) inside) (outer : Nat)
    (rest : List α) :
    scopeEndFrom opening closing (outer + 1) (inside ++ rest) =
      (scopeEndFrom opening closing (outer + 1) rest).map (· + inside.length) := by
  induction balanced generalizing outer rest with
  | nil => rw [List.nil_append, List.length_nil, map_add_zero]
  | plain noOpening noClosing _ ih =>
      have plain := And.intro (Bool.eq_false_iff.mpr noOpening) (Bool.eq_false_iff.mpr noClosing)
      rw [List.cons_append, scopeEndFrom_plain plain, ih, map_add_map_add, List.length_cons]
  | @scope first last inside later opens _ closes _ ihInside ih =>
      have noOpening := noOpening_of_closes apart closes
      rw [List.cons_append, List.append_assoc, List.cons_append, scopeEndFrom_opening opens,
        ihInside, scopeEndFrom_closing noOpening closes]
      simp only
      rw [ih, map_add_map_add, map_add_map_add, map_add_map_add]
      congr 2
      funext place
      simp only [List.length_cons, List.length_append]
      omega

end

/-!
### What closes open scopes

Read from inside of several scopes, a list closes them one after the other.
-/

/-- What lies before the item that closes the outermost of `outer + 1` open scopes: a balanced list
in each of them, and between these the items that close the others. -/
inductive Unwinds {α : Type} (Opens Closes : α → Prop) : (outer : Nat) → List α → Prop where
  | last {inside : List α} (balanced : Balanced Opens Closes inside) : Unwinds Opens Closes 0 inside
  | more {outer : Nat} {inside later : List α} {last : α}
      (balanced : Balanced Opens Closes inside) (closes : Closes last)
      (unwinds : Unwinds Opens Closes outer later) :
      Unwinds Opens Closes (outer + 1) (inside ++ last :: later)

namespace Unwinds

variable {α : Type} {Opens Closes : α → Prop} {outer : Nat} {taken : List α} {item : α}

theorem cons_plain (noOpening : ¬Opens item) (noClosing : ¬Closes item)
    (unwinds : Unwinds Opens Closes outer taken) : Unwinds Opens Closes outer (item :: taken) := by
  cases unwinds with
  | last balanced => exact .last (.plain noOpening noClosing balanced)
  | more balanced closes later => exact .more (.plain noOpening noClosing balanced) closes later

/-- An opening item makes one scope of the two innermost lists. -/
theorem cons_opening (opens : Opens item) (unwinds : Unwinds Opens Closes (outer + 1) taken) :
    Unwinds Opens Closes outer (item :: taken) := by
  cases unwinds with
  | @more _ inside _ last balanced closes later =>
      cases later with
      | last behind => exact .last (.scope opens balanced closes behind)
      | @more outer next later after behind closesToo latest =>
          have joined : Unwinds Opens Closes (outer + 1)
              ((item :: (inside ++ last :: next)) ++ after :: later) :=
            .more (.scope opens balanced closes behind) closesToo latest
          simpa using joined

end Unwinds

section

variable {α : Type} [BEq α] {opening closing : α}

/-- Where a scan with open scopes ends well, the outermost of them is closed. -/
theorem exists_unwinds {outer place : Nat} {items : List α}
    (found : scopeEndFrom opening closing (outer + 1) items = .ok place) :
    ∃ taken last tail, items = taken ++ last :: tail ∧ (last == closing) = true ∧
      Unwinds (· == opening) (· == closing) outer taken ∧ place = taken.length := by
  induction items generalizing outer place with
  | nil => cases found
  | cons item rest ih =>
      cases opens : item == opening with
      | true =>
          rw [scopeEndFrom_opening opens] at found
          obtain ⟨before, foundLater, rfl⟩ := map_add_eq_ok_iff.mp found
          obtain ⟨taken, last, tail, rfl, closes, unwinds, rfl⟩ := ih foundLater
          exact ⟨item :: taken, last, tail, rfl, closes, unwinds.cons_opening opens, rfl⟩
      | false =>
          cases closes : item == closing with
          | true =>
              rw [scopeEndFrom_closing opens closes] at found
              cases outer with
              | zero =>
                  obtain rfl := Except.ok.inj found
                  exact ⟨[], item, rest, rfl, closes, .last .nil, rfl⟩
              | succ outer =>
                  obtain ⟨before, foundLater, rfl⟩ := map_add_eq_ok_iff.mp found
                  obtain ⟨taken, last, tail, rfl, closesLater, unwinds, rfl⟩ := ih foundLater
                  exact ⟨item :: taken, last, tail, rfl, closesLater,
                    .more .nil closes unwinds, rfl⟩
          | false =>
              rw [scopeEndFrom_plain ⟨opens, closes⟩] at found
              obtain ⟨before, foundLater, rfl⟩ := map_add_eq_ok_iff.mp found
              obtain ⟨taken, last, tail, rfl, closesLater, unwinds, rfl⟩ := ih foundLater
              have noOpening := Bool.eq_false_iff.mp opens
              have noClosing := Bool.eq_false_iff.mp closes
              exact ⟨item :: taken, last, tail, rfl, closesLater,
                unwinds.cons_plain noOpening noClosing, rfl⟩

/-- Before the first scope there is no delimiter. -/
theorem exists_first_opening {place : Nat} {items : List α}
    (found : scopeEnd opening closing items = .ok place) :
    ∃ lead first rest before, items = lead ++ first :: rest ∧
      (∀ item ∈ lead, IsPlain opening closing item) ∧ (first == opening) = true ∧
      scopeEndFrom opening closing 1 rest = .ok before ∧ place = lead.length + 1 + before := by
  rw [scopeEnd] at found
  induction items generalizing place with
  | nil => cases found
  | cons item rest ih =>
      cases opens : item == opening with
      | true =>
          rw [scopeEndFrom_opening opens] at found
          obtain ⟨before, foundLater, rfl⟩ := map_add_eq_ok_iff.mp found
          refine ⟨[], item, rest, before, rfl, List.forall_mem_nil _, opens, foundLater, ?_⟩
          exact (Nat.add_comm before 1).trans (congrArg (· + before) (Nat.zero_add 1).symm)
      | false =>
          cases closes : item == closing with
          | true =>
              rw [scopeEndFrom_closing opens closes] at found
              cases found
          | false =>
              rw [scopeEndFrom_plain ⟨opens, closes⟩] at found
              obtain ⟨before, foundLater, rfl⟩ := map_add_eq_ok_iff.mp found
              obtain ⟨lead, first, later, inner, rfl, plain, opensFirst, foundInner, rfl⟩ :=
                ih foundLater
              refine ⟨item :: lead, first, later, inner, rfl, ?_, opensFirst, foundInner, ?_⟩
              · exact List.forall_mem_cons.mpr ⟨⟨opens, closes⟩, plain⟩
              · rw [List.length_cons]
                omega

theorem scopeEndFrom_lead {lead : List α} (plain : ∀ item ∈ lead, IsPlain opening closing item)
    (depth : Nat) (rest : List α) :
    scopeEndFrom opening closing depth (lead ++ rest) =
      (scopeEndFrom opening closing depth rest).map (· + lead.length) := by
  induction lead with
  | nil => rw [List.nil_append, List.length_nil, map_add_zero]
  | cons item lead ih =>
      obtain ⟨plainHere, plainLater⟩ := List.forall_mem_cons.mp plain
      rw [List.cons_append, scopeEndFrom_plain plainHere, ih plainLater, map_add_map_add,
        List.length_cons]

end

/-!
### The first scope
-/

/-- Some items cut at two of them. -/
structure ScopeCut (α : Type) where
  lead : List α
  first : α
  inside : List α
  last : α
  tail : List α
deriving Repr, DecidableEq

namespace ScopeCut

variable {α : Type} [BEq α] {opening closing : α} {items : List α} {cut : ScopeCut α}

/-- The two items open and close the first scope: no delimiter stands before it, and what stands
between them is balanced. -/
structure Fits (opening closing : α) (items : List α) (cut : ScopeCut α) : Prop where
  whole : items = cut.lead ++ cut.first :: (cut.inside ++ cut.last :: cut.tail)
  plain : ∀ item ∈ cut.lead, IsPlain opening closing item
  opens : (cut.first == opening) = true
  balanced : Balanced (· == opening) (· == closing) cut.inside
  closes : (cut.last == closing) = true

theorem Fits.scopeEnd_eq [PartialEquivBEq α] (apart : (opening == closing) = false)
    (fits : cut.Fits opening closing items) :
    scopeEnd opening closing items = .ok (cut.lead.length + 1 + cut.inside.length) := by
  have noOpening := noOpening_of_closes apart fits.closes
  rw [scopeEnd, fits.whole, scopeEndFrom_lead fits.plain, scopeEndFrom_opening fits.opens,
    scopeEndFrom_balanced apart fits.balanced, scopeEndFrom_closing noOpening fits.closes]
  simp only [Except.map]
  congr 1
  omega

theorem exists_fits {place : Nat} (found : scopeEnd opening closing items = .ok place) :
    ∃ cut : ScopeCut α, cut.Fits opening closing items ∧
      place = cut.lead.length + 1 + cut.inside.length := by
  obtain ⟨lead, first, rest, before, rfl, plain, opens, foundInner, rfl⟩ :=
    exists_first_opening found
  obtain ⟨inside, last, tail, rfl, closes, unwinds, rfl⟩ := exists_unwinds foundInner
  cases unwinds with
  | @last inside balanced =>
      exact ⟨⟨lead, first, inside, last, tail⟩, ⟨rfl, plain, opens, balanced, closes⟩, rfl⟩

theorem Fits.unique [PartialEquivBEq α] (apart : (opening == closing) = false)
    {other : ScopeCut α} (fits : cut.Fits opening closing items)
    (fitsToo : other.Fits opening closing items) : cut = other := by
  have exclusive : ∀ item : α, (item == opening) = true → ¬(item == closing) = true := by
    intro item opens closes
    rw [noOpening_of_closes apart closes] at opens
    cases opens
  have unopened : ∀ {lead : List α}, (∀ item ∈ lead, IsPlain opening closing item) →
      ∀ item ∈ lead, ¬(item == opening) = true :=
    fun plain item member => Bool.eq_false_iff.mp (plain item member).1
  have same := fits.whole.symm.trans fitsToo.whole
  obtain ⟨leads, firsts, rests⟩ := first_cut_unique same (unopened fits.plain) fits.opens
    (unopened fitsToo.plain) fitsToo.opens
  have insides := fits.balanced.unique exclusive fitsToo.balanced fits.closes fitsToo.closes rests
  rw [insides] at rests
  obtain ⟨lasts, tails⟩ := List.cons.inj (List.append_cancel_left rests)
  obtain ⟨lead, first, inside, last, tail⟩ := cut
  obtain ⟨_, _, _, _, _⟩ := other
  simp only at leads firsts insides lasts tails
  subst leads firsts insides lasts tails
  rfl

end ScopeCut

/-- The search for the end of the first scope finds a place exactly when the items can be cut into a
list without delimiters, an opening item, a balanced list, a closing item and whatever follows, and
the place is that of the closing item.  There is only one way to cut them like that.  Items are the
same for the search if `==` says so. -/
theorem scopeEnd_first_scope {α : Type} [BEq α] [PartialEquivBEq α] {opening closing : α}
    (apart : (opening == closing) = false) (items : List α) :
    (∀ place, scopeEnd opening closing items = .ok place ↔
      ∃ cut : ScopeCut α, cut.Fits opening closing items ∧
        place = cut.lead.length + 1 + cut.inside.length) ∧
    ∀ cut other : ScopeCut α, cut.Fits opening closing items → other.Fits opening closing items →
      cut = other := by
  refine ⟨fun place => ⟨ScopeCut.exists_fits, ?_⟩, fun cut other fits => fits.unique apart⟩
  rintro ⟨cut, fits, rfl⟩
  exact fits.scopeEnd_eq apart

/-- A scope with another one inside and text on both sides. -/
theorem scopeEnd_first_scope_nested :
    let items := ['f', '(', 'a', '(', 'b', ')', ',', 'c', ')', '+', 'd']
    let cut : ScopeCut Char := ⟨['f'], '(', ['a', '(', 'b', ')', ',', 'c'], ')', ['+', 'd']⟩
    ('(' == ')') = false ∧ cut.Fits '(' ')' items ∧ scopeEnd '(' ')' items = .ok 8 ∧
      ∀ other : ScopeCut Char, other.Fits '(' ')' items → cut = other := by
  intro items cut
  have apart : ('(' == ')') = false := rfl
  have fits : cut.Fits '(' ')' items := by
    refine ⟨rfl, ?_, rfl, ?_, rfl⟩
    · exact List.forall_mem_singleton.mpr ⟨rfl, rfl⟩
    · have inner : Balanced (· == '(') (· == ')') ['b'] := .plain (by decide) (by decide) .nil
      have behind : Balanced (· == '(') (· == ')') [',', 'c'] :=
        .plain (by decide) (by decide) (.plain (by decide) (by decide) .nil)
      have scope : Balanced (· == '(') (· == ')') ('(' :: (['b'] ++ ')' :: [',', 'c'])) :=
        .scope rfl inner rfl behind
      exact .plain (by decide) (by decide) scope
  obtain ⟨found, unique⟩ := scopeEnd_first_scope apart items
  exact ⟨apart, fits, (found 8).mpr ⟨cut, fits, rfl⟩,
    fun other fitsToo => unique cut other fits fitsToo⟩

/-!
### Scopes left open

A scan that comes to the end of the items has some scopes open, and these are the opening items less
the closing ones.
-/

section

variable {α : Type} [BEq α] {opening closing : α}

/-- A scan over some items does not stop among them, and takes one depth to another. -/
structure Descends (opening closing : α) (depth : Nat) (items : List α) (deep : Nat) : Prop where
  balance : deep + items.count closing = depth + items.count opening
  /-- Once a scope is open, one stays open. -/
  stays : deep = 0 → depth = 0 ∧ ∀ item ∈ items, IsPlain opening closing item
  onward (rest : List α) : scopeEndFrom opening closing depth (items ++ rest) =
    (scopeEndFrom opening closing deep rest).map (· + items.length)

namespace Descends

variable {depth deep : Nat} {items : List α} {item : α}

theorem nil : Descends opening closing depth [] depth where
  balance := rfl
  stays closed := ⟨closed, List.forall_mem_nil _⟩
  onward _ := (map_add_zero _).symm

theorem cons_opening (opens : (item == opening) = true) (noClosing : (item == closing) = false)
    (later : Descends opening closing (depth + 1) items deep) :
    Descends opening closing depth (item :: items) deep where
  balance := by
    have counted := later.balance
    simp only [List.count_cons, opens, noClosing, Bool.false_eq_true, if_true, if_false]
    omega
  stays closed := absurd (later.stays closed).1 depth.succ_ne_zero
  onward rest := by
    rw [List.cons_append, scopeEndFrom_opening opens, later.onward, map_add_map_add,
      List.length_cons]

theorem cons_closing (noOpening : (item == opening) = false) (closes : (item == closing) = true)
    (later : Descends opening closing (depth + 1) items deep) :
    Descends opening closing (depth + 2) (item :: items) deep where
  balance := by
    have counted := later.balance
    simp only [List.count_cons, noOpening, closes, Bool.false_eq_true, if_true, if_false]
    omega
  stays closed := absurd (later.stays closed).1 depth.succ_ne_zero
  onward rest := by
    rw [List.cons_append, scopeEndFrom_closing noOpening closes]
    simp only
    rw [later.onward, map_add_map_add, List.length_cons]

theorem cons_plain (plain : IsPlain opening closing item)
    (later : Descends opening closing depth items deep) :
    Descends opening closing depth (item :: items) deep where
  balance := by
    have counted := later.balance
    simp only [List.count_cons, plain.1, plain.2, Bool.false_eq_true, if_false]
    omega
  stays closed := by
    obtain ⟨shallow, plainLater⟩ := later.stays closed
    exact ⟨shallow, List.forall_mem_cons.mpr ⟨plain, plainLater⟩⟩
  onward rest := by
    rw [List.cons_append, scopeEndFrom_plain plain, later.onward, map_add_map_add,
      List.length_cons]

/-- A scan that starts with no scope open has none in the end exactly if there is no delimiter. -/
theorem eq_zero_iff (descends : Descends opening closing 0 items deep) :
    deep = 0 ↔ ∀ item ∈ items, IsPlain opening closing item := by
  refine ⟨fun closed => (descends.stays closed).2, fun plain => ?_⟩
  have noOpening : items.count opening = 0 :=
    List.countP_eq_zero.mpr fun item member => Bool.eq_false_iff.mp (plain item member).1
  have balance := descends.balance
  omega

end Descends

/-- A scan that finds no end goes through all the items. -/
theorem exists_descends [PartialEquivBEq α] (apart : (opening == closing) = false) {depth : Nat}
    {items : List α} (unclosed : scopeEndFrom opening closing depth items = .error .unclosed) :
    ∃ deep, Descends opening closing depth items deep := by
  induction items generalizing depth with
  | nil => exact ⟨depth, .nil⟩
  | cons item rest ih =>
      cases closes : item == closing with
      | true =>
          have noOpening := noOpening_of_closes apart closes
          rw [scopeEndFrom_closing noOpening closes] at unclosed
          match depth with
          | 0 => cases unclosed
          | 1 => cases unclosed
          | outer + 2 =>
              obtain ⟨deep, later⟩ := ih (map_add_eq_error_iff.mp unclosed)
              exact ⟨deep, later.cons_closing noOpening closes⟩
      | false =>
          cases opens : item == opening with
          | true =>
              rw [scopeEndFrom_opening opens] at unclosed
              obtain ⟨deep, later⟩ := ih (map_add_eq_error_iff.mp unclosed)
              exact ⟨deep, later.cons_opening opens closes⟩
          | false =>
              rw [scopeEndFrom_plain ⟨opens, closes⟩] at unclosed
              obtain ⟨deep, later⟩ := ih (map_add_eq_error_iff.mp unclosed)
              exact ⟨deep, later.cons_plain ⟨opens, closes⟩⟩

/-- As many closing items as scopes are open close all of them, with the last one. -/
theorem scopeEndFrom_replicate [EquivBEq α] (apart : (opening == closing) = false) (outer : Nat) :
    scopeEndFrom opening closing (outer + 1) (List.replicate (outer + 1) closing) = .ok outer := by
  have noOpening := noOpening_of_closes apart (BEq.refl closing)
  induction outer with
  | zero => exact scopeEndFrom_closing noOpening (BEq.refl closing) 1 []
  | succ outer ih =>
      rw [List.replicate_succ, scopeEndFrom_closing noOpening (BEq.refl closing)]
      simp only
      rw [ih]
      rfl

/-- Fewer are not enough. -/
theorem scopeEndFrom_replicate_fewer [EquivBEq α] (apart : (opening == closing) = false)
    {depth fewer : Nat} (few : fewer < depth) :
    scopeEndFrom opening closing depth (List.replicate fewer closing) = .error .unclosed := by
  have noOpening := noOpening_of_closes apart (BEq.refl closing)
  induction fewer generalizing depth with
  | zero => rfl
  | succ fewer ih =>
      match depth, few with
      | outer + 2, few =>
          rw [List.replicate_succ, scopeEndFrom_closing noOpening (BEq.refl closing)]
          exact map_add_eq_error_iff.mpr (ih (Nat.lt_of_succ_lt_succ few))

/-- Once a scope is open, no closing item is one too many. -/
theorem scopeEndFrom_ne_unopened (outer : Nat) (items : List α) :
    scopeEndFrom opening closing (outer + 1) items ≠ .error .unopened := by
  induction items generalizing outer with
  | nil => nofun
  | cons item rest ih =>
      cases opens : item == opening with
      | true =>
          rw [scopeEndFrom_opening opens]
          exact mt map_add_eq_error_iff.mp (ih (outer + 1))
      | false =>
          cases closes : item == closing with
          | true =>
              rw [scopeEndFrom_closing opens closes]
              cases outer with
              | zero => nofun
              | succ outer => exact mt map_add_eq_error_iff.mp (ih outer)
          | false =>
              rw [scopeEndFrom_plain ⟨opens, closes⟩]
              exact mt map_add_eq_error_iff.mp (ih outer)

/-- The search stops at a closing item with no opening one before it, and reports that nowhere
else. -/
theorem scopeEnd_unopened_iff [PartialEquivBEq α] (apart : (opening == closing) = false)
    (items : List α) :
    scopeEnd opening closing items = .error .unopened ↔
      ∃ lead last tail, items = lead ++ last :: tail ∧
        (∀ item ∈ lead, (item == opening) = false) ∧ (last == closing) = true := by
  rw [scopeEnd]
  constructor
  · intro failed
    induction items with
    | nil => cases failed
    | cons item rest ih =>
        cases opens : item == opening with
        | true =>
            rw [scopeEndFrom_opening opens] at failed
            exact absurd (map_add_eq_error_iff.mp failed) (scopeEndFrom_ne_unopened 0 rest)
        | false =>
            cases closes : item == closing with
            | true => exact ⟨[], item, rest, rfl, List.forall_mem_nil _, closes⟩
            | false =>
                rw [scopeEndFrom_plain ⟨opens, closes⟩] at failed
                obtain ⟨lead, last, tail, rfl, unopened, closesLater⟩ :=
                  ih (map_add_eq_error_iff.mp failed)
                exact ⟨item :: lead, last, tail, rfl, List.forall_mem_cons.mpr ⟨opens, unopened⟩,
                  closesLater⟩
  · rintro ⟨lead, last, tail, rfl, unopened, closes⟩
    induction lead with
    | nil => exact scopeEndFrom_closing (noOpening_of_closes apart closes) closes 0 tail
    | cons item lead ih =>
        obtain ⟨noOpening, unopenedLater⟩ := List.forall_mem_cons.mp unopened
        rw [List.cons_append]
        cases closesHere : item == closing with
        | true => exact scopeEndFrom_closing noOpening closesHere 0 _
        | false =>
            rw [scopeEndFrom_plain ⟨noOpening, closesHere⟩]
            exact map_add_eq_error_iff.mpr (ih unopenedLater)

/-- An item that is both delimiters opens, so nothing is ever closed. -/
theorem scopeEndFrom_same [PartialEquivBEq α] (same : (opening == closing) = true) (depth : Nat)
    (items : List α) : scopeEndFrom opening closing depth items = .error .unclosed := by
  induction items generalizing depth with
  | nil => rfl
  | cons item rest ih =>
      cases opens : item == opening with
      | true =>
          rw [scopeEndFrom_opening opens, ih]
          rfl
      | false =>
          have noClosing : (item == closing) = false := by
            apply Bool.eq_false_iff.mpr
            intro closes
            have opensToo := PartialEquivBEq.trans closes (PartialEquivBEq.symm same)
            rw [opens] at opensToo
            cases opensToo
          rw [scopeEndFrom_plain ⟨opens, noClosing⟩, ih]
          rfl

end

/-- The failures of the search.  It reports an unopened scope exactly when some closing item comes
before every opening one.  If it reports an unclosed scope, the opening items are at least as many
as the closing ones; they are as many only if there is no delimiter at all, and otherwise as many
closing items as are missing end the scope with the last of them, and fewer do not.  With one item
for both delimiters every scope is unclosed.  Wherever the search comes to a closing item, which it
does if the items before it alone leave it unclosed, the scopes that are open are the opening items
less the closing ones, and there are none exactly when the item is reported as unopened. -/
theorem scopeEnd_failures {α : Type} [BEq α] [EquivBEq α] (opening closing : α) (items : List α) :
    ((opening == closing) = false →
      (scopeEnd opening closing items = .error .unopened ↔
        ∃ lead last tail, items = lead ++ last :: tail ∧
          (∀ item ∈ lead, (item == opening) = false) ∧ (last == closing) = true) ∧
      (scopeEnd opening closing items = .error .unclosed →
        let missing := items.count opening - items.count closing
        items.count closing ≤ items.count opening ∧
        (missing = 0 ↔
          ∀ item ∈ items, (item == opening) = false ∧ (item == closing) = false) ∧
        (0 < missing → scopeEnd opening closing (items ++ List.replicate missing closing) =
          .ok (items.length + missing - 1)) ∧
        ∀ fewer < missing, scopeEnd opening closing (items ++ List.replicate fewer closing) =
          .error .unclosed) ∧
      ∀ front item behind, items = front ++ item :: behind → (item == closing) = true →
        scopeEnd opening closing front = .error .unclosed →
          ∃ depth, depth + front.count closing = front.count opening ∧
            scopeEnd opening closing items =
              (scopeEndFrom opening closing depth (item :: behind)).map (· + front.length) ∧
            (depth = 0 ↔ scopeEnd opening closing items = .error .unopened)) ∧
    ((opening == closing) = true → scopeEnd opening closing items = .error .unclosed) := by
  refine ⟨fun apart => ⟨scopeEnd_unopened_iff apart items, ?_, ?_⟩,
    fun same => scopeEndFrom_same same 0 items⟩
  · intro unclosed missing
    obtain ⟨deep, descends⟩ := exists_descends apart unclosed
    have balance := descends.balance
    have counted : missing = deep := by omega
    have extended : ∀ more, scopeEnd opening closing (items ++ more) =
        (scopeEndFrom opening closing missing more).map (· + items.length) := by
      rw [counted]
      exact descends.onward
    refine ⟨by omega, ?_, fun lacking => ?_, fun fewer few => ?_⟩
    · rw [counted]
      exact descends.eq_zero_iff
    · obtain ⟨outer, filled⟩ := Nat.exists_eq_add_of_lt lacking
      rw [Nat.zero_add] at filled
      rw [extended, filled, scopeEndFrom_replicate apart]
      exact congrArg Except.ok (Nat.add_comm outer items.length)
    · rw [extended, scopeEndFrom_replicate_fewer apart few]
      rfl
  · rintro front item behind rfl closes unclosed
    obtain ⟨depth, descends⟩ := exists_descends apart unclosed
    have noOpening := noOpening_of_closes apart closes
    have reached : scopeEnd opening closing (front ++ item :: behind) =
        (scopeEndFrom opening closing depth (item :: behind)).map (· + front.length) :=
      descends.onward (item :: behind)
    refine ⟨depth, by simpa using descends.balance, reached, ?_⟩
    rw [reached, map_add_eq_error_iff]
    cases depth with
    | zero => simp [scopeEndFrom_closing noOpening closes]
    | succ outer => simp [scopeEndFrom_ne_unopened]

/-- Two scopes that are left open, the same with a closing item before them, and items of which one
is both delimiters. -/
theorem scopeEnd_failures_two_missing :
    let items := ['f', '(', '(', 'a', ')', '(']
    scopeEnd '(' ')' items = .error .unclosed ∧
      scopeEnd '(' ')' (items ++ [')']) = .error .unclosed ∧
      scopeEnd '(' ')' (items ++ [')', ')']) = .ok 7 ∧
      scopeEnd '(' ')' (')' :: items) = .error .unopened ∧
      scopeEnd '|' '|' ['|', 'a', '|'] = .error .unclosed := by
  intro items
  have apart : ('(' == ')') = false := rfl
  have unclosed : scopeEnd '(' ')' items = .error .unclosed := rfl
  obtain ⟨-, repair, -⟩ := (scopeEnd_failures '(' ')' items).1 apart
  obtain ⟨-, -, closed, fewer⟩ := repair unclosed
  obtain ⟨unopened, -, -⟩ := (scopeEnd_failures '(' ')' (')' :: items)).1 apart
  refine ⟨unclosed, fewer 1 (by decide), closed (by decide), ?_, ?_⟩
  · exact unopened.mpr ⟨[], ')', items, rfl, List.forall_mem_nil _, rfl⟩
  · exact (scopeEnd_failures '|' '|' ['|', 'a', '|']).2 rfl

end CLike
