/-
Module: CLike.Text.Line
Layer: Text
Purpose: Cutting a text into its lines.
Main exports: Text.lines, Text.lines_of_not_mem, Text.lines_append_newline,
  Text.lines_flatMap_newline
-/

namespace CLike.Text

/-- The lines of a text whose first line has already been started.  The characters of the start come
latest first. -/
def linesFrom (started : List Char) : List Char → List (List Char)
  | [] => if started.isEmpty then [] else [started.reverse]
  | char :: rest =>
    if char = '\n' then started.reverse :: linesFrom [] rest else linesFrom (char :: started) rest

/-- The lines of a text without their newlines.  A newline ends a line and does not start one, so a
text that ends in a newline has no further, empty line, and the empty text has no line at all.  A
carriage return is an ordinary character of its line. -/
def lines (text : List Char) : List (List Char) := linesFrom [] text

/-!
The lemmas say what the lines of every text are: a text without a newline is one line, unless it is
empty, and from any other text the first line can be cut off.
-/

private theorem linesFrom_of_not_mem {text : List Char} (single : '\n' ∉ text)
    (started : List Char) (filled : started.reverse ++ text ≠ []) :
    linesFrom started text = [started.reverse ++ text] := by
  induction text generalizing started with
  | nil =>
      have some_started : started.isEmpty = false := by
        cases started with
        | nil => exact absurd rfl filled
        | cons => rfl
      rw [linesFrom, some_started, if_neg Bool.false_ne_true, List.append_nil]
  | cons char rest ih =>
      obtain ⟨other, later⟩ := not_or.mp (mt List.mem_cons.mpr single)
      have moved : (char :: started).reverse ++ rest = started.reverse ++ char :: rest := by
        rw [List.reverse_cons, List.append_assoc, List.singleton_append]
      rw [linesFrom, if_neg (Ne.symm other), ih later (char :: started) (moved ▸ filled), moved]

private theorem linesFrom_append_newline {line : List Char} (single : '\n' ∉ line)
    (started rest : List Char) :
    linesFrom started (line ++ '\n' :: rest) = (started.reverse ++ line) :: lines rest := by
  induction line generalizing started with
  | nil => rw [List.nil_append, linesFrom, if_pos rfl, List.append_nil, lines]
  | cons char more ih =>
      obtain ⟨other, later⟩ := not_or.mp (mt List.mem_cons.mpr single)
      rw [List.cons_append, linesFrom, if_neg (Ne.symm other), ih later, List.reverse_cons,
        List.append_assoc, List.singleton_append]

/-- A text without a newline is one line, unless it is empty. -/
theorem lines_of_not_mem {text : List Char} (single : '\n' ∉ text) (filled : text ≠ []) :
    lines text = [text] :=
  linesFrom_of_not_mem single [] filled

/-- A first line that is ended by a newline can be cut off. -/
theorem lines_append_newline {line : List Char} (single : '\n' ∉ line) (rest : List Char) :
    lines (line ++ '\n' :: rest) = line :: lines rest :=
  linesFrom_append_newline single [] rest

section

variable {texts : List (List Char)} (single : ∀ text ∈ texts, '\n' ∉ text)

include single

/-- Lines that are put together, each with a newline behind it, are found again. -/
theorem lines_flatMap_newline : lines (texts.flatMap (· ++ ['\n'])) = texts := by
  induction texts with
  | nil => rfl
  | cons text texts ih =>
      obtain ⟨here, later⟩ := List.forall_mem_cons.mp single
      rw [List.flatMap_cons, List.append_assoc, List.singleton_append, lines_append_newline here,
        ih later]

/-- There are no newlines but those behind the lines. -/
theorem count_newline_flatMap : (texts.flatMap (· ++ ['\n'])).count '\n' = texts.length := by
  induction texts with
  | nil => rfl
  | cons text texts ih =>
      obtain ⟨here, later⟩ := List.forall_mem_cons.mp single
      rw [List.flatMap_cons, List.append_assoc, List.singleton_append, List.count_append,
        List.count_eq_zero.mpr here, List.count_cons_self, ih later, List.length_cons, Nat.zero_add]

end

private theorem not_mem_of_mem_linesFrom {started text line : List Char} (clean : '\n' ∉ started)
    (member : line ∈ linesFrom started text) : '\n' ∉ line := by
  induction text generalizing started with
  | nil =>
      rw [linesFrom] at member
      split at member
      · cases member
      · rw [List.mem_singleton.mp member]
        exact mt List.mem_reverse.mp clean
  | cons char rest ih =>
      rw [linesFrom] at member
      split at member
      · rcases List.mem_cons.mp member with rfl | later
        · exact mt List.mem_reverse.mp clean
        · exact ih List.not_mem_nil later
      · next other =>
          have longer : '\n' ∉ char :: started := fun inside =>
            (List.mem_cons.mp inside).elim (fun same => other same.symm) clean
          exact ih longer member

/-- No line holds a newline. -/
theorem not_mem_of_mem_lines {text line : List Char} (member : line ∈ lines text) :
    '\n' ∉ line :=
  not_mem_of_mem_linesFrom List.not_mem_nil member

end CLike.Text
