/-
Module: CLike.Proofs.RecognizerOrders
Layer: Proofs
Purpose: The recognizers can be tried in every order in which the one of operators of one character
  comes behind those of comments and of longer operators, and in no other.
Main exports: Recognizer.eq_or_outdone, Recognizer.Prevails, findSome?_of_earliest, lexWith,
  lexWith_eq_lex_iff
-/
import CLike.Proofs.InertCharacters
import Mathlib.Data.List.Basic

namespace CLike

/-!
### Rivals

Two recognizers seldom read the same text.  The first character tells apart all but those of marks,
and of these the one of operators of one character is the only rival of the others.
-/

namespace Recognizer

/-- What reads more than an operator of one character where there is one. -/
def longer : List Recognizer := [comment, compound]

/-- Where a recognizer starts that is none of marks, no other one does. -/
theorem opens_alone {recognizer : Recognizer} (noMark : recognizer ∉ longer ++ [single])
    {first : Char} (opens : recognizer.opens first = true) {other : Recognizer}
    (different : other ≠ recognizer) : other.opens first = false := by
  cases recognizer with
  | comment => exact absurd (by decide) noMark
  | compound => exact absurd (by decide) noMark
  | single => exact absurd (by decide) noMark
  | blank => exact opens_of_isInert (isInert_of_isBlank opens) different
  | string =>
      obtain rfl := eq_of_beq opens
      cases other with
      | string => exact absurd rfl different
      | _ => rfl
  | character =>
      obtain rfl := eq_of_beq opens
      cases other with
      | character => exact absurd rfl different
      | _ => rfl
  | integer =>
      have others := opens_of_isWordChar (isWordChar_of_isDigit opens)
      cases other with
      | integer => exact absurd rfl different
      | word =>
          apply Bool.eq_false_iff.mpr
          intro letter
          exact Bool.false_ne_true ((isDigit_of_isAlpha letter).symm.trans opens)
      | _ => exact others _ (by decide)
  | word =>
      have others := opens_of_isWordChar (isWordChar_of_isAlpha opens)
      cases other with
      | word => exact absurd rfl different
      | integer => exact isDigit_of_isAlpha opens
      | _ => exact others _ (by decide)

/-- The mark of a comment is no operator. -/
theorem compound_declines_comment {text : List Char} (read : comment.read? text ≠ none) :
    compound.read? text = none := by
  have marked : lineComment.toList <+: text := by
    by_contra unmarked
    rw [← List.isPrefixOf_iff_prefix] at unmarked
    exact read (by simp only [read?, if_neg unmarked])
  have front : text.take 2 = lineComment.toList := (List.prefix_iff_eq_take.mp marked).symm
  apply Vocabulary.read?_eq_none
  rw [front]
  decide

/-- No two longer readings are possible in front of the same text. -/
theorem eq_of_longer {one two : Recognizer} (isLonger : one ∈ longer) (isLongerToo : two ∈ longer)
    {text : List Char} (read : one.read? text ≠ none) (readToo : two.read? text ≠ none) :
    one = two := by
  simp only [longer, List.mem_cons, List.not_mem_nil, or_false] at isLonger isLongerToo
  rcases isLonger with rfl | rfl <;> rcases isLongerToo with rfl | rfl
  · rfl
  · exact absurd (compound_declines_comment read) readToo
  · exact absurd (compound_declines_comment readToo) read
  · rfl

/-- Of two recognizers that read the same text, one is that of operators of one character and the
other one reads something longer. -/
theorem eq_or_outdone {one two : Recognizer} {first : Char} {rest : List Char}
    (read : one.read? (first :: rest) ≠ none) (readToo : two.read? (first :: rest) ≠ none) :
    one = two ∨ (one = single ∧ two ∈ longer) ∨ (two = single ∧ one ∈ longer) := by
  have opens : ∀ {recognizer : Recognizer}, recognizer.read? (first :: rest) ≠ none →
      recognizer.opens first = true := by
    intro recognizer read
    by_contra foreign
    exact read (read?_eq_none (Bool.eq_false_iff.mpr foreign) rest)
  have marks : ∀ {recognizer other : Recognizer}, other ≠ recognizer →
      recognizer.read? (first :: rest) ≠ none → other.read? (first :: rest) ≠ none →
      recognizer ∈ longer ∨ recognizer = single := by
    intro recognizer other different read readToo
    rw [← List.mem_singleton, ← List.mem_append]
    by_contra noMark
    have unopened := opens_alone noMark (opens read) different
    exact Bool.false_ne_true (unopened.symm.trans (opens readToo))
  by_cases same : one = two
  · exact .inl same
  · rcases marks (Ne.symm same) read readToo with isLonger | rfl
    · rcases marks same readToo read with isLongerToo | isSingle
      · exact .inl (eq_of_longer isLonger isLongerToo read readToo)
      · exact .inr (.inr ⟨isSingle, isLonger⟩)
    · exact .inr (.inl ⟨rfl, (marks same readToo read).resolve_right (Ne.symm same)⟩)

/-- The recognizer reads the text, and if it reads an operator of one character, nothing longer is
there. -/
structure Prevails (text : List Char) (recognizer : Recognizer) : Prop where
  reads : recognizer.read? text ≠ none
  longest : recognizer = single → ∀ other ∈ longer, other.read? text = none

/-- Where some recognizer of a list reads, one of them prevails, if the list is not without those of
longer readings. -/
theorem exists_prevails {order : List Recognizer} (all : longer ⊆ order) {text : List Char}
    {reader : Recognizer} (member : reader ∈ order) (reads : reader.read? text ≠ none) :
    ∃ recognizer ∈ order, recognizer.Prevails text := by
  by_cases outdone : ∃ other ∈ longer, other.read? text ≠ none
  · obtain ⟨other, isLonger, readsLonger⟩ := outdone
    refine ⟨other, all isLonger, readsLonger, ?_⟩
    rintro rfl
    exact absurd isLonger (by decide)
  · refine ⟨reader, member, reads, fun _ other isLonger => ?_⟩
    by_contra readsLonger
    exact outdone ⟨other, isLonger, readsLonger⟩

end Recognizer

/-!
### Orders

What is tried first decides.  So an order matters only where it puts rivals one before the other.
-/

/-- The earliest item of a list with a value gives the value that is found first. -/
theorem findSome?_of_earliest {α β : Type} [BEq α] [LawfulBEq α] {view : α → Option β}
    {order : List α} {item : α} (member : item ∈ order) (valued : view item ≠ none)
    (earliest : ∀ other, other ≠ item → view other ≠ none → order.idxOf item < order.idxOf other) :
    order.findSome? view = view item := by
  induction order with
  | nil => cases member
  | cons head order ih =>
      by_cases here : head = item
      · obtain ⟨value, shape⟩ := Option.ne_none_iff_exists'.mp valued
        rw [List.findSome?_cons, here, shape]
      · have declined : view head = none := by
          by_contra valuedHead
          have before := earliest head here valuedHead
          rw [List.idxOf_cons_self] at before
          exact Nat.not_lt_zero _ before
        rw [List.findSome?_cons, declined]
        refine ih ((List.mem_cons.mp member).resolve_left (Ne.symm here)) ?_
        intro other different valuedOther
        have before := earliest other different valuedOther
        have apart : head ≠ other := by
          rintro rfl
          exact valuedOther declined
        simp only [List.idxOf_cons, beq_false_of_ne here, beq_false_of_ne apart, cond_false]
          at before
        exact Nat.lt_of_succ_lt_succ before

namespace Recognizer

/-- The longer readings are tried before the operators of one character. -/
def LongerFirst (order : List Recognizer) : Prop :=
  ∀ other ∈ longer, order.idxOf other < order.idxOf single

instance (order : List Recognizer) : Decidable (LongerFirst order) :=
  inferInstanceAs (Decidable (∀ other ∈ longer, order.idxOf other < order.idxOf single))

/-- In an order with the longer readings first, the recognizer that prevails decides. -/
theorem findSome?_of_prevails {order : List Recognizer} (longerFirst : LongerFirst order)
    {first : Char} {rest : List Char} {recognizer : Recognizer} (member : recognizer ∈ order)
    (prevails : recognizer.Prevails (first :: rest)) :
    order.findSome? (·.read? (first :: rest)) = recognizer.read? (first :: rest) := by
  apply findSome?_of_earliest member prevails.reads
  intro other different readsOther
  rcases eq_or_outdone prevails.reads readsOther with same | ⟨isSingle, isLonger⟩ | ⟨rfl, isLonger⟩
  · exact absurd same.symm different
  · exact absurd (prevails.longest isSingle other isLonger) readsOther
  · exact longerFirst recognizer isLonger

/-- Two orders of the same recognizers, both with the longer readings first, read the same. -/
theorem findSome?_of_perm {one two : List Recognizer} (perm : one.Perm two)
    (all : longer ⊆ one) (longerFirst : LongerFirst one) (longerFirstToo : LongerFirst two)
    (first : Char) (rest : List Char) :
    one.findSome? (·.read? (first :: rest)) = two.findSome? (·.read? (first :: rest)) := by
  by_cases read : ∃ reader ∈ one, reader.read? (first :: rest) ≠ none
  · obtain ⟨reader, member, reads⟩ := read
    obtain ⟨recognizer, member, prevails⟩ := exists_prevails all member reads
    rw [findSome?_of_prevails longerFirst member prevails,
      findSome?_of_prevails longerFirstToo (perm.mem_iff.mp member) prevails]
  · have declined : ∀ recognizer ∈ one, recognizer.read? (first :: rest) = none := by
      intro recognizer member
      by_contra reads
      exact read ⟨recognizer, member, reads⟩
    rw [List.findSome?_eq_none_iff.mpr declined, List.findSome?_eq_none_iff.mpr]
    exact fun recognizer member => declined recognizer (perm.mem_iff.mpr member)

end Recognizer

/-!
### Scans
-/

section

variable {one two : List Recognizer}

/-- Two orders that read the same scan the same. -/
theorem scanLine_congr (same : ∀ first rest,
      one.findSome? (·.read? (first :: rest)) = two.findSome? (·.read? (first :: rest)))
    (line column covered : Nat) (text : List Char) :
    scanLine one line column covered text = scanLine two line column covered text := by
  induction text generalizing column covered with
  | nil => rw [scanLine, scanLine]
  | cons first rest ih =>
      cases covered with
      | succ covered => rw [scanLine, scanLine, ih]
      | zero => simp only [scanLine, same, ih]

/-- Two orders that scan every line the same find the same lexemes in every text. -/
theorem lexemesWith_congr (same : ∀ line column covered text,
      scanLine one line column covered text = scanLine two line column covered text)
    (source : String) : lexemesWith one source = lexemesWith two source := by
  have lines : ∀ line texts, scanLines one line texts = scanLines two line texts := by
    intro line texts
    induction texts generalizing line with
    | nil => rfl
    | cons text later ih => rw [scanLines, scanLines, same, ih]
  rw [lexemesWith, lexemesWith, lines]

end

/-- The tokens of a text, with the recognizers tried in any order. -/
def lexWith (order : List Recognizer) (source : String) : Except LexicalError (List Token) :=
  (lexemesWith order source).map (·.map Lexeme.token)

/-- A token that is read at the front of a text of one line is the first one. -/
theorem head?_of_lexWith {order : List Recognizer} {first : Char} {rest : List Char}
    (sameLine : '\n' ∉ first :: rest) {width : Nat} {kind : Kind} {literal : Literal}
    (decides : order.findSome? (·.read? (first :: rest)) = some (.token width kind literal))
    {tokens : List Token} (read : lexWith order (String.ofList (first :: rest)) = .ok tokens) :
    tokens.head? = some ⟨kind, literal, ⟨1, 1⟩⟩ := by
  have lines : Text.lines (first :: rest) = [first :: rest] :=
    Text.lines_of_not_mem sameLine (List.cons_ne_nil first rest)
  have here : scanLine order 1 1 0 (first :: rest) =
      (scanLine order 1 2 (width - 1) rest).map (⟨⟨kind, literal, ⟨1, 1⟩⟩, width⟩ :: ·) := by
    rw [scanLine, decides]
  rw [lexWith, lexemesWith, String.toList_ofList, lines, scanLines, scanLines, here] at read
  cases later : scanLine order 1 2 (width - 1) rest with
  | error cause =>
      rw [later] at read
      cases read
  | ok found =>
      rw [later] at read
      obtain rfl := Except.ok.inj read
      rfl

namespace Recognizer

/-- Where the operators of one character are tried before the one longer reading that is possible,
they decide. -/
theorem findSome?_of_singleFirst {order : List Recognizer} (member : single ∈ order)
    {other : Recognizer} (before : order.idxOf single < order.idxOf other) {mark : Char}
    {kind : Kind} (known : singleOperators.kindOf? (String.ofList [mark]) = some kind)
    {rest : List Char}
    (noThird : ∀ third ∈ longer, third ≠ other → third.read? (mark :: rest) = none) :
    order.findSome? (·.read? (mark :: rest)) =
      some (.token 1 kind (.text (String.ofList [mark]))) := by
  have reads := single_reads known rest
  have valued : single.read? (mark :: rest) ≠ none := by
    rw [reads]
    exact Option.some_ne_none _
  rw [← reads]
  apply findSome?_of_earliest member valued
  intro third notSingle readsThird
  rcases eq_or_outdone valued readsThird with same | ⟨-, isLonger⟩ | ⟨same, -⟩
  · exact absurd same.symm notSingle
  · by_cases same : third = other
    · rwa [same]
    · exact absurd (noThird third isLonger same) readsThird
  · exact absurd same notSingle

/-- Something longer that is not tried before the operators of one character is not read where it
is there. -/
theorem exists_lexWith_ne {order : List Recognizer} (member : single ∈ order)
    {other : Recognizer} (isLonger : other ∈ longer)
    (late : ¬order.idxOf other < order.idxOf single) :
    ∃ source, lexWith order source ≠ lex source := by
  have different : single ≠ other := by
    rintro rfl
    exact absurd isLonger (by decide)
  have before : order.idxOf single < order.idxOf other :=
    Nat.lt_of_le_of_ne (Nat.le_of_not_lt late) (mt (List.idxOf_inj member).mp different)
  simp only [longer, List.mem_cons, List.not_mem_nil, or_false] at isLonger
  -- A doubled mark is a comment or one operator, and is taken for two operators.
  rcases isLonger with rfl | rfl
  · have known : singleOperators.kindOf? (String.ofList ['/']) = some .slash := rfl
    have decides := @findSome?_of_singleFirst _ member _ before _ _ known ['/'] (by decide)
    refine ⟨"//", fun same => ?_⟩
    cases head?_of_lexWith (by decide) decides same
  · have known : singleOperators.kindOf? (String.ofList ['=']) = some .assign := rfl
    have decides := @findSome?_of_singleFirst _ member _ before _ _ known ['='] (by decide)
    refine ⟨"==", fun same => ?_⟩
    cases head?_of_lexWith (by decide) decides same

end Recognizer

open Recognizer

/-- The order of the recognizers matters in two places only.  Let all of them be tried in some
order, with or without that of blanks.  A scan in this order gives every text the same tokens at the
same places, or refuses it with the same error, exactly if comments and operators of two characters
are tried before operators of one character. -/
theorem lexWith_eq_lex_iff {order : List Recognizer}
    (complete : order.Perm usual ∨ order.Perm (withoutBlank usual)) :
    (∀ source, lexWith order source = lex source) ↔
      order.idxOf .comment < order.idxOf .single ∧ order.idxOf .compound < order.idxOf .single := by
  have marks : ∀ recognizer ∈ [comment, compound, single], recognizer ∈ order := by
    intro recognizer member
    rcases complete with perm | perm <;>
      · rw [perm.mem_iff]
        revert recognizer
        decide
  constructor
  · intro same
    have longerFirst : LongerFirst order := by
      intro other isLonger
      by_contra late
      obtain ⟨source, differs⟩ := exists_lexWith_ne (marks single (by decide)) isLonger late
      exact differs (same source)
    exact ⟨longerFirst comment (by decide), longerFirst compound (by decide)⟩
  · rintro ⟨commentFirst, compoundFirst⟩ source
    have longerFirst : LongerFirst order :=
      List.forall_mem_cons.mpr ⟨commentFirst, List.forall_mem_singleton.mpr compoundFirst⟩
    have all : longer ⊆ order := fun other isLonger =>
      marks other (List.mem_append_left [single] isLonger)
    have scans : ∀ line column covered text,
        scanLine order line column covered text = scanLine usual line column covered text := by
      intro line column covered text
      rcases complete with perm | perm
      · exact scanLine_congr (findSome?_of_perm perm all longerFirst (by decide)) ..
      -- Without the recognizer of blanks, the usual order scans every line as it does with it.
      · rw [← scanLine_withoutBlank usual]
        exact scanLine_congr (findSome?_of_perm perm all longerFirst (by decide)) ..
    rw [lexWith, lexemesWith_congr scans]
    rfl

/-- The recognizers from the last to the first, but with the operators of one character at the end
and without blanks; and all of them in their usual order, but for a comment that is taken for two
operators. -/
theorem lexWith_eq_lex_iff_reversed :
    let reversed : List Recognizer :=
      [.word, .integer, .character, .string, .compound, .comment, .single]
    let divided : List Recognizer :=
      [.compound, .single, .comment, .blank, .string, .character, .integer, .word]
    (reversed.Perm (withoutBlank usual) ∧ ∀ source, lexWith reversed source = lex source) ∧
      (divided.Perm usual ∧ ¬∀ source, lexWith divided source = lex source) := by
  intro reversed divided
  have complete : reversed.Perm (withoutBlank usual) := by decide
  have completeToo : divided.Perm usual := by decide
  exact ⟨⟨complete, (lexWith_eq_lex_iff (.inr complete)).mpr (by decide)⟩,
    completeToo, mt (lexWith_eq_lex_iff (.inl completeToo)).mp (by decide)⟩

end CLike
