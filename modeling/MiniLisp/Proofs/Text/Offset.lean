import Mathlib.Algebra.GroupWithZero.Nat
import Mathlib.Data.List.Basic
import Mathlib.Data.List.TakeWhile
import Mathlib.Order.Monotone.Basic
import MiniLisp.Text.Line

/-! # Offsets and positions

Line feeds separate the lines of a text. An offset is the start of a line and a column that is not
beyond the end of the line, in one way only, and its position tells the two. So positions can be
turned back into offsets, and they stand in the same order.
-/

namespace MiniLisp.Text

/-- Where a line starts: behind all earlier lines, each with the line feed after it. -/
def lineStart (text : List Char) (n : Nat) : Nat :=
  (((text.splitOn '\n').take n).map (·.length + 1)).sum

namespace Position

/-- The position, `n` lines further down. -/
def down (n : Nat) (p : Position) : Position :=
  { p with line := p.line + n }

theorem ofOffset_append_left {before : List Char} {k : Nat} (inside : k ≤ before.length)
    (text : List Char) : ofOffset (before ++ text) k = ofOffset before k := by
  rw [ofOffset, ofOffset, List.take_append_of_le_length inside]

/-- A line feed starts the columns anew. -/
theorem after_newline (before text : List Char) :
    after (before ++ '\n' :: text) = (after text).down (before.count '\n' + 1) := by
  have line : (before ++ '\n' :: text).count '\n' = text.count '\n' + (before.count '\n' + 1) := by
    rw [List.count_append, List.count_cons_self]
    omega
  have column : (before ++ '\n' :: text).reverse.takeWhile (· ≠ '\n') =
      text.reverse.takeWhile (· ≠ '\n') := by
    have split : (before ++ '\n' :: text).reverse = text.reverse ++ '\n' :: before.reverse := by simp
    rw [split, List.takeWhile_append]
    split
    · rename_i whole
      have same := List.IsPrefix.eq_of_length (List.takeWhile_prefix _) whole
      rw [same, List.takeWhile_cons_of_neg (by simp), List.append_nil]
    · rfl
  simp only [after, down, line, column]

theorem ofOffset_newline (before text : List Char) (k : Nat) :
    ofOffset (before ++ '\n' :: text) (before.length + 1 + k) =
      (ofOffset text k).down (before.count '\n' + 1) := by
  have taken : (before ++ '\n' :: text).take (before.length + 1 + k) =
      before ++ '\n' :: text.take k := by
    rw [Nat.add_assoc, List.take_length_add_append, Nat.add_comm 1 k, List.take_succ_cons]
  rw [ofOffset, taken, after_newline, ofOffset]

/-- The line is there, and the column is not beyond its end. -/
def Inside (text : List Char) (p : Position) : Prop :=
  ∃ line, (text.splitOn '\n')[p.line]? = some line ∧ p.column ≤ line.length

def offset (text : List Char) (p : Position) : Nat :=
  lineStart text p.line + p.column

/-- The order by line and then by column. -/
def Precedes (p q : Position) : Prop :=
  p.line < q.line ∨ p.line = q.line ∧ p.column < q.column

end Position

section

variable {text left line : List Char} {n : Nat}

theorem length_splitOn (text : List Char) :
    (text.splitOn '\n').length = text.count '\n' + 1 := by
  induction text with
  | nil => rfl
  | cons c text ih =>
      rw [List.splitOn_cons_eq_if_modifyHead, List.count_cons]
      split <;> simp_all

theorem sum_splitOn (text : List Char) :
    ((text.splitOn '\n').map (·.length + 1)).sum = text.length + 1 := by
  induction text with
  | nil => rfl
  | cons c text ih =>
      obtain ⟨first, others, lines⟩ := List.exists_cons_of_ne_nil (List.splitOn_ne_nil '\n' text)
      rw [List.splitOn_cons_eq_if_modifyHead, lines]
      rw [lines] at ih
      simp only [List.map_cons, List.sum_cons, List.length_cons] at ih ⊢
      split
      · simp only [List.map_cons, List.sum_cons, List.length_nil]
        omega
      · simp only [List.modifyHead_cons, List.map_cons, List.sum_cons, List.length_cons]
        omega

/-- What stands before the first line feed begins the first line. -/
theorem splitOn_append (single : '\n' ∉ left) (rest : List Char) :
    ∃ right later, (left ++ rest).splitOn '\n' = (left ++ right) :: later := by
  by_cases breaks : '\n' ∈ rest
  · obtain ⟨right, others, rfl, inside⟩ := List.eq_append_cons_of_mem breaks
    refine ⟨right, others.splitOn '\n', ?_⟩
    rw [← List.append_assoc]
    exact List.splitOn_append_cons_self_of_not_mem (by simp [single, inside]) _
  · exact ⟨rest, [], List.splitOn_eq_singleton (by simp [single, breaks])⟩

theorem exists_last_newline (breaks : '\n' ∈ text) :
    ∃ earlier left, text = earlier ++ '\n' :: left ∧ '\n' ∉ left := by
  obtain ⟨right, others, split, inside⟩ := List.eq_append_cons_of_mem (List.mem_reverse.mpr breaks)
  refine ⟨others.reverse, right.reverse, ?_, by simpa using inside⟩
  have reversed := congrArg List.reverse split
  rwa [List.reverse_reverse, List.reverse_append, List.reverse_cons, List.append_assoc] at reversed

theorem lineStart_succ (here : (text.splitOn '\n')[n]? = some line) :
    lineStart text (n + 1) = lineStart text n + (line.length + 1) := by
  unfold lineStart
  rw [List.take_add_one, here, Option.toList_some, List.map_append, List.sum_append,
    List.map_singleton, List.sum_singleton]

theorem lineStart_monotone (text : List Char) : Monotone (lineStart text) := by
  refine monotone_nat_of_le_succ fun n => ?_
  unfold lineStart
  rw [List.take_add_one, List.map_append, List.sum_append]
  exact Nat.le_add_right _ _

theorem lineStart_le (text : List Char) (n : Nat) : lineStart text n ≤ text.length + 1 := by
  have whole : lineStart text (text.splitOn '\n').length = text.length + 1 := by
    rw [lineStart, List.take_length, sum_splitOn]
  obtain within | beyond := Nat.le_total n (text.splitOn '\n').length
  · exact whole ▸ lineStart_monotone text within
  · rw [← whole, lineStart, lineStart, List.take_length, List.take_of_length_le beyond]

end

namespace Position

theorem after_of_single {left : List Char} (single : '\n' ∉ left) :
    after left = ⟨0, left.length⟩ := by
  have inside : ∀ c ∈ left.reverse, decide (c ≠ '\n') = true := by
    intro c member
    exact decide_eq_true fun same => single (same ▸ List.mem_reverse.mp member)
  rw [after, List.count_eq_zero.mpr single, List.takeWhile_eq_self_iff.mpr inside,
    List.length_reverse]

/-- A word without line feeds stands on one line, at the position of the place before it. -/
theorem exists_line (before : List Char) {word : List Char} (single : '\n' ∉ word)
    (rest : List Char) :
    let text := before ++ (word ++ rest)
    ∃ left right, (text.splitOn '\n')[(after before).line]? = some (left ++ (word ++ right)) ∧
      left.length = (after before).column ∧ (after before).offset text = before.length := by
  intro text
  by_cases breaks : '\n' ∈ before
  · obtain ⟨earlier, left, rfl, inside⟩ := exists_last_newline breaks
    have alone : '\n' ∉ left ++ word := by simp [inside, single]
    obtain ⟨right, later, lines⟩ := splitOn_append alone rest
    have position : after (earlier ++ '\n' :: left) = ⟨earlier.count '\n' + 1, left.length⟩ := by
      rw [after_newline, after_of_single inside, down, Nat.zero_add]
    have all : text.splitOn '\n' = earlier.splitOn '\n' ++ (left ++ (word ++ right)) :: later := by
      have split : text = earlier ++ '\n' :: (left ++ word ++ rest) := by simp [text]
      rw [split, List.splitOn_append_cons_self, lines, List.append_assoc]
    have number := length_splitOn earlier
    have start : lineStart text (earlier.count '\n' + 1) = earlier.length + 1 := by
      rw [lineStart, all, ← number, List.take_left, sum_splitOn]
    refine ⟨left, right, ?_, ?_, ?_⟩
    · rw [position, all, ← number]
      simp
    · rw [position]
    · rw [position, offset, start, List.length_append, List.length_cons, Nat.add_right_comm,
        Nat.add_assoc]
  · have alone : '\n' ∉ before ++ word := by simp [breaks, single]
    obtain ⟨right, later, lines⟩ := splitOn_append alone rest
    have all : text.splitOn '\n' = (before ++ (word ++ right)) :: later := by
      rw [← List.append_assoc, ← lines, List.append_assoc]
    refine ⟨before, right, ?_, ?_, ?_⟩
    · rw [after_of_single breaks, all, List.getElem?_cons_zero]
    · rw [after_of_single breaks]
    · rw [after_of_single breaks, offset, lineStart, List.take_zero]
      simp

theorem ofOffset_inside {text : List Char} {k : Nat} (within : k ≤ text.length) :
    (ofOffset text k).Inside text ∧ (ofOffset text k).offset text = k := by
  obtain ⟨left, right, here, column, back⟩ :=
    exists_line (text.take k) (List.not_mem_nil (a := '\n')) (text.drop k)
  rw [List.nil_append, List.take_append_drop] at here back
  rw [List.length_take_of_le within] at back
  refine ⟨⟨_, here, ?_⟩, back⟩
  rw [ofOffset, ← column, List.length_append]
  exact Nat.le_add_right _ _

section

variable {text : List Char} {p q : Position}

theorem Inside.offset_lt (inside : p.Inside text) : p.offset text < lineStart text (p.line + 1) := by
  obtain ⟨line, here, column⟩ := inside
  rw [lineStart_succ here, offset]
  omega

theorem Inside.offset_le (inside : p.Inside text) : p.offset text ≤ text.length :=
  Nat.le_of_lt_succ (Nat.lt_of_lt_of_le inside.offset_lt (lineStart_le text _))

theorem Precedes.offset_lt (precedes : p.Precedes q) (inside : p.Inside text) :
    p.offset text < q.offset text := by
  obtain earlier | ⟨same, before⟩ := precedes
  · calc
      p.offset text < lineStart text (p.line + 1) := inside.offset_lt
      _ ≤ lineStart text q.line := lineStart_monotone text earlier
      _ ≤ q.offset text := Nat.le_add_right _ _
  · rw [offset, offset, same]
    exact Nat.add_lt_add_left before _

theorem precedes_or_eq_or_precedes (p q : Position) : p.Precedes q ∨ p = q ∨ q.Precedes p := by
  obtain ⟨line, column⟩ := p
  obtain ⟨line', column'⟩ := q
  simp only [Precedes, mk.injEq]
  omega

theorem Inside.precedes_iff (inside : p.Inside text) (inside' : q.Inside text) :
    p.Precedes q ↔ p.offset text < q.offset text := by
  refine ⟨fun precedes => precedes.offset_lt inside, fun less => ?_⟩
  obtain precedes | rfl | follows := precedes_or_eq_or_precedes p q
  · exact precedes
  · exact absurd less (Nat.lt_irrefl _)
  · exact absurd less (Nat.lt_asymm (follows.offset_lt inside'))

theorem Inside.eq_of_offset (inside : p.Inside text) (inside' : q.Inside text)
    (same : p.offset text = q.offset text) : p = q := by
  obtain precedes | equal | follows := precedes_or_eq_or_precedes p q
  · exact absurd same (Nat.ne_of_lt (precedes.offset_lt inside))
  · exact equal
  · exact absurd same (Nat.ne_of_gt (follows.offset_lt inside'))

theorem Inside.ofOffset_offset (inside : p.Inside text) : ofOffset text (p.offset text) = p := by
  obtain ⟨inside', back⟩ := ofOffset_inside inside.offset_le
  exact inside'.eq_of_offset inside back

end

end Position

end MiniLisp.Text
