import Mathlib.Data.List.Induction
import MiniLisp.Text.Character
import MiniLisp.Text.Line

namespace MiniLisp.Text

/-- What stands on the last line of the text, if that line has no end yet. -/
def unended (text : List Char) : List Char :=
  (text.reverse.takeWhile (!endsLine ·)).reverse

/-- The position of the place right after `before`, with all lines counted that end before it. -/
def Position.inLines (before : List Char) : Position where
  line := (allLines before).countP (·.any endsLine)
  column := (unended before).length

/-- Every line of the text that ends, ends in a line feed. -/
def EndsInLineFeeds (text : List Char) : Prop :=
  ∀ line ∈ allLines text, line.any endsLine = true → '\n' ∈ line

instance (text : List Char) : Decidable (EndsInLineFeeds text) :=
  inferInstanceAs (Decidable (∀ line ∈ allLines text, _))

/-- The line has an end, and no line feed before it. -/
def Ended (line : List Char) : Prop :=
  ∃ body c, line = body ++ [c] ∧ endsLine c = true ∧ '\n' ∉ body

/-- The lines that end in the text, and what stands after them. Text that goes on with no end of a
line goes on where they stop. -/
structure Broken (text : List Char) (earlier : List (List Char)) (left : List Char) : Prop where
  split : text = earlier.flatten ++ left
  ended : ∀ line ∈ earlier, Ended line
  inside : ∀ d ∈ left, endsLine d = false
  lines : ∀ rest, (∀ c ∈ rest.head?, endsLine c = false) →
    allLines (text ++ rest) = earlier ++ allLines (left ++ rest)

section

variable {text before word line left : List Char} {earlier : List (List Char)} {c : Char}

theorem isBlank_of_endsLine (ends : endsLine c = true) : isBlank c = true := by
  simp only [endsLine, isBlank, isWhiteSpace, Bool.or_eq_true, Bool.and_eq_true, decide_eq_true_eq,
    beq_iff_eq] at *
  omega

theorem ne_newline_of_inside (inside : endsLine c = false) : c ≠ '\n' := by
  rintro rfl
  contradiction

theorem allLines_inside (inside : endsLine c = false) (text : List Char) :
    allLines (c :: text) = consFirst c (allLines text) := by
  conv => lhs; unfold allLines
  split
  · contradiction
  · rename_i same
    cases same
    contradiction
  · simp_all

theorem allLines_ends (ends : endsLine c = true) (single : c = '\r' → text.head? ≠ some '\n') :
    allLines (c :: text) = [c] :: allLines text := by
  conv => lhs; unfold allLines
  split <;> simp_all

theorem allLines_pair (text : List Char) :
    allLines ('\r' :: '\n' :: text) = ['\r', '\n'] :: allLines text := by
  rw [allLines]

theorem allLines_cons (c : Char) (text : List Char) :
    ∃ line later, allLines (c :: text) = (c :: line) :: later := by
  by_cases inside : endsLine c = false
  · rw [allLines_inside inside]
    cases allLines text <;> exact ⟨_, _, rfl⟩
  · have ends : endsLine c = true := by simpa using inside
    by_cases pair : c = '\r' ∧ text.head? = some '\n'
    · obtain ⟨rfl, feed⟩ := pair
      obtain ⟨rest, rfl⟩ := List.head?_eq_some_iff.mp feed
      exact ⟨_, _, allLines_pair rest⟩
    · rw [allLines_ends ends fun same feed => pair ⟨same, feed⟩]
      exact ⟨_, _, rfl⟩

/-- A word without ends of lines stands on the first line whole. -/
theorem allLines_word (inside : ∀ c ∈ word, endsLine c = false) (present : word ≠ [])
    (after : List Char) :
    ∃ right later, allLines (word ++ after) = (word ++ right) :: later ∧
      right.head? = after.head? := by
  induction word with
  | nil => exact absurd rfl present
  | cons c word ih =>
      obtain ⟨here, further⟩ := List.forall_mem_cons.mp inside
      rw [List.cons_append, allLines_inside here]
      by_cases last : word = []
      · subst last
        cases after with
        | nil => exact ⟨[], [], rfl, rfl⟩
        | cons d after =>
            obtain ⟨line, later, lines⟩ := allLines_cons d after
            exact ⟨d :: line, later, congrArg (consFirst c) lines, rfl⟩
      · obtain ⟨right, later, lines, first⟩ := ih further last
        exact ⟨right, later, congrArg (consFirst c) lines, first⟩

theorem Ended.cons (inside : endsLine c = false) (ended : Ended line) : Ended (c :: line) := by
  obtain ⟨body, d, rfl, ends, single⟩ := ended
  have other := ne_newline_of_inside inside
  exact ⟨c :: body, d, rfl, ends, by simp [single, other.symm]⟩

theorem exists_broken (text : List Char) : ∃ earlier left, Broken text earlier left := by
  -- A carriage return looks one character ahead, so `lines` has to speak of all that may follow.
  induction text using allLines.induct with
  | case1 => exact ⟨[], [], rfl, List.forall_mem_nil _, List.forall_mem_nil _, fun _ _ => rfl⟩
  | case2 text ih =>
      obtain ⟨earlier, left, split, ended, inside, lines⟩ := ih
      refine ⟨['\r', '\n'] :: earlier, left, by simp [split], ?_, inside, fun rest first => ?_⟩
      · exact List.forall_mem_cons.mpr ⟨⟨['\r'], '\n', rfl, rfl, by decide⟩, ended⟩
      · exact (allLines_pair _).trans (congrArg _ (lines rest first))
  | case3 c text single ends ih =>
      obtain ⟨earlier, left, split, ended, inside, lines⟩ := ih
      refine ⟨[c] :: earlier, left, by simp [split], ?_, inside, fun rest first => ?_⟩
      · exact List.forall_mem_cons.mpr ⟨⟨[], c, rfl, ends, List.not_mem_nil⟩, ended⟩
      · have apart (carriage : c = '\r') : (text ++ rest).head? ≠ some '\n' := by
          intro feed
          cases text with
          | nil => exact absurd (first '\n' feed) (by decide)
          | cons d text => exact single text carriage (by simpa using feed)
        rw [List.cons_append, allLines_ends ends apart, lines rest first]
        rfl
  | case4 c text single inside' ih =>
      obtain ⟨earlier, left, split, ended, inside, lines⟩ := ih
      have here : endsLine c = false := by simpa using inside'
      have begun (rest : List Char) (first : ∀ c ∈ rest.head?, endsLine c = false) :
          allLines (c :: text ++ rest) = consFirst c (earlier ++ allLines (left ++ rest)) := by
        rw [List.cons_append, allLines_inside here, lines rest first]
      cases earlier with
      | nil =>
          refine ⟨[], c :: left, by simp [split], List.forall_mem_nil _, ?_, fun rest first => ?_⟩
          · exact List.forall_mem_cons.mpr ⟨here, inside⟩
          · rw [begun rest first, List.cons_append, allLines_inside here]
            rfl
      | cons line earlier =>
          obtain ⟨first, others⟩ := List.forall_mem_cons.mp ended
          refine ⟨(c :: line) :: earlier, left, by simp [split], ?_, inside, begun⟩
          exact List.forall_mem_cons.mpr ⟨first.cons here, others⟩

theorem takeWhile_reverse_append {p : Char → Bool} (kept : ∀ c ∈ left, p c = true)
    (stops : ∀ c ∈ before.getLast?, p c = false) :
    (before ++ left).reverse.takeWhile p = left.reverse := by
  have stop : before.reverse.takeWhile p = [] := by
    cases reversed : before.reverse with
    | nil => rfl
    | cons c rest =>
        have last : before.getLast? = some c := by
          rw [List.getLast?_eq_head?_reverse, reversed, List.head?_cons]
        exact List.takeWhile_cons_of_neg (by simp [stops c last])
  rw [List.reverse_append, List.takeWhile_append_of_pos (by simpa using kept), stop,
    List.append_nil]

theorem Ended.getLast? (ended : Ended line) :
    ∃ c, line.getLast? = some c ∧ endsLine c = true ∧ ('\n' ∈ line → c = '\n') := by
  obtain ⟨body, c, rfl, ends, single⟩ := ended
  refine ⟨c, by simp, ends, fun member => ?_⟩
  have := (List.mem_append.mp member).resolve_left single
  exact (List.mem_singleton.mp this).symm

theorem Ended.count_le (ended : Ended line) : line.count '\n' ≤ 1 := by
  obtain ⟨body, c, rfl, _, single⟩ := ended
  rw [List.count_append, List.count_eq_zero.mpr single, Nat.zero_add]
  exact List.count_le_length

theorem Ended.any_endsLine (ended : Ended line) : line.any endsLine = true := by
  obtain ⟨body, c, rfl, ends, _⟩ := ended
  simp [ends]

theorem count_flatten_le (ended : ∀ line ∈ earlier, Ended line) :
    earlier.flatten.count '\n' ≤ earlier.length := by
  induction earlier with
  | nil => exact Nat.le_refl _
  | cons line earlier ih =>
      obtain ⟨here, others⟩ := List.forall_mem_cons.mp ended
      have first := here.count_le
      have rest := ih others
      rw [List.flatten_cons, List.count_append, List.length_cons]
      omega

/-- There are as many line feeds as lines if each line has one. -/
theorem count_flatten_eq_length_iff (ended : ∀ line ∈ earlier, Ended line) :
    earlier.flatten.count '\n' = earlier.length ↔ ∀ line ∈ earlier, '\n' ∈ line := by
  induction earlier with
  | nil => exact iff_of_true rfl (List.forall_mem_nil _)
  | cons line earlier ih =>
      obtain ⟨here, others⟩ := List.forall_mem_cons.mp ended
      have first := here.count_le
      have rest := count_flatten_le others
      rw [List.flatten_cons, List.count_append, List.length_cons, List.forall_mem_cons, ← ih others,
        ← List.count_pos_iff]
      omega

theorem endsLine_of_getLast? (ended : ∀ line ∈ earlier, Ended line)
    (last : earlier.flatten.getLast? = some c) :
    endsLine c = true ∧ ((∀ line ∈ earlier, '\n' ∈ line) → c = '\n') := by
  induction earlier using List.reverseRecOn with
  | nil => contradiction
  | append_singleton earlier line =>
      have member : line ∈ earlier ++ [line] := by simp
      obtain ⟨d, here, ends, feed⟩ := (ended line member).getLast?
      have same : (earlier ++ [line]).flatten.getLast? = some d := by simp [here]
      cases same.symm.trans last
      exact ⟨ends, fun all => feed (all line member)⟩

namespace Broken

variable (broken : Broken text earlier left)
include broken

theorem unended_eq : unended text = left := by
  have stops : ∀ c ∈ earlier.flatten.getLast?, (!endsLine c) = false := by
    intro c last
    simp [(endsLine_of_getLast? broken.ended last).1]
  rw [unended, broken.split, takeWhile_reverse_append (by simpa using broken.inside) stops,
    List.reverse_reverse]

theorem allLines_eq : allLines text = earlier ++ allLines left := by
  have lines := broken.lines [] (by simp)
  rwa [List.append_nil, List.append_nil] at lines

theorem not_any_endsLine (member : line ∈ allLines left) : line.any endsLine = false := by
  rw [List.any_eq_false]
  intro c here
  have inside : c ∈ (allLines left).flatten := List.mem_flatten.mpr ⟨line, member, here⟩
  rw [flatten_allLines] at inside
  simp [broken.inside c inside]

theorem inLines_eq : Position.inLines text = ⟨earlier.length, left.length⟩ := by
  have all : earlier.countP (·.any endsLine) = earlier.length :=
    List.countP_eq_length.mpr fun line member => (broken.ended line member).any_endsLine
  have none : (allLines left).countP (·.any endsLine) = 0 :=
    List.countP_eq_zero.mpr fun line member => by simp [broken.not_any_endsLine member]
  rw [Position.inLines, broken.unended_eq, broken.allLines_eq, List.countP_append, all, none,
    Nat.add_zero]

theorem endsInLineFeeds_iff : EndsInLineFeeds text ↔ ∀ line ∈ earlier, '\n' ∈ line := by
  rw [EndsInLineFeeds, broken.allLines_eq, List.forall_mem_append]
  constructor
  · intro feeds line member
    exact feeds.1 line member (broken.ended line member).any_endsLine
  · refine fun feeds => ⟨fun line member _ => feeds line member, fun line member ends => ?_⟩
    exact absurd ends (by simp [broken.not_any_endsLine member])

end Broken

end

/-- Line feeds alone give a place the line and the column that an editor gives it, if and only if
no line before it ends in another way. -/
theorem after_eq_inLines_iff (text : List Char) :
    Position.after text = Position.inLines text ↔ EndsInLineFeeds text := by
  obtain ⟨earlier, left, broken⟩ := exists_broken text
  have inside : ∀ c ∈ left, c ≠ '\n' := fun c member =>
    ne_newline_of_inside (broken.inside c member)
  have noFeed : left.count '\n' = 0 :=
    List.count_eq_zero.mpr fun member => inside _ member rfl
  have count : text.count '\n' = earlier.flatten.count '\n' := by
    rw [broken.split, List.count_append, noFeed, Nat.add_zero]
  rw [broken.inLines_eq, broken.endsInLineFeeds_iff, ← count_flatten_eq_length_iff broken.ended,
    ← count]
  constructor
  · intro same
    exact congrArg Position.line same
  · intro lines
    have feeds := (count_flatten_eq_length_iff broken.ended).mp (count ▸ lines)
    have stops : ∀ c ∈ earlier.flatten.getLast?, decide (c ≠ '\n') = false := by
      intro c last
      simp [(endsLine_of_getLast? broken.ended last).2 feeds]
    have column : text.reverse.takeWhile (· ≠ '\n') = left.reverse := by
      rw [broken.split]
      exact takeWhile_reverse_append (by simpa using inside) stops
    rw [Position.after, lines, column, List.length_reverse]

end MiniLisp.Text
