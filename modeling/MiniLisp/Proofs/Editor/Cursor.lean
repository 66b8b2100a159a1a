import Mathlib.Data.List.TakeWhile
import MiniLisp.Proofs.Editor.Word

/-! # The word at a cursor

At every place of a line, its end included, the word that is found is the longest run of characters
other than delimiters that touches the place. An editor counts a place beyond the end of a line as
its end, and a line without what ends it. Here it is told exactly where the two agree; the place of a
column that is too large is not found at all.
-/

namespace MiniLisp.Text

/-- The longest run of characters other than delimiters that contains the place or ends at it. -/
inductive Touches (line : List Char) (k : Nat) : Option (List Char) → Prop where
  | word (split : line = before ++ (word ++ after)) (starts : before.length ≤ k)
      (stops : k ≤ before.length + word.length) (present : word ≠ [])
      (whole : ∀ c ∈ word, isDelimiter c = false)
      (left : ∀ c ∈ before.getLast?, isDelimiter c = true)
      (right : ∀ c ∈ after.head?, isDelimiter c = true) : Touches line k (some word)
  | none (inside : k ≤ line.length) (left : ∀ c ∈ (line.take k).getLast?, isDelimiter c = true)
      (right : ∀ c ∈ (line.drop k).head?, isDelimiter c = true) : Touches line k none

/-- What ends a line: nothing at the end of the text, one character, or two. -/
inductive LineEnd : List Char → Prop where
  | none : LineEnd []
  | single (ends : endsLine c = true) : LineEnd [c]
  | pair : LineEnd ['\r', '\n']

def content (line : List Char) : List Char :=
  line.takeWhile (!endsLine ·)

def ending (line : List Char) : List Char :=
  line.dropWhile (!endsLine ·)

section

variable {text line before after : List Char} {k : Nat}

theorem ending_cons_of_inside {c : Char} (inside : endsLine c = false) (line : List Char) :
    ending (c :: line) = ending line :=
  List.dropWhile_cons_of_pos (by simpa using inside)

theorem lineEnd_of_mem_allLines (member : line ∈ allLines text) : LineEnd (ending line) := by
  induction text using allLines.induct generalizing line with
  | case1 => contradiction
  | case2 text ih =>
      rw [allLines_pair] at member
      rcases List.mem_cons.mp member with rfl | later
      · exact .pair
      · exact ih later
  | case3 c text single ends ih =>
      rw [allLines, if_pos ends] at member
      rcases List.mem_cons.mp member with rfl | later
      · rw [ending, List.dropWhile_cons_of_neg (by simpa using ends)]
        exact .single ends
      · exact ih later
      · exact single
  | case4 c text single inside ih =>
      have inside : endsLine c = false := by simpa using inside
      rw [allLines_inside inside] at member
      cases rest : allLines text with
      | nil =>
          rw [rest] at member
          cases List.mem_singleton.mp member
          rw [ending_cons_of_inside inside]
          exact .none
      | cons first others =>
          rw [rest] at member
          rcases List.mem_cons.mp member with rfl | later
          · rw [ending_cons_of_inside inside]
            exact ih (rest ▸ List.mem_cons_self)
          · exact ih (rest ▸ List.mem_cons_of_mem first later)

theorem content_append_ending (line : List Char) : content line ++ ending line = line :=
  List.takeWhile_append_dropWhile

/-- The word between two halves of a line, if there is one. -/
def found? (before after : List Char) : Option (List Char) :=
  let word := wordBetween before after
  if word.isEmpty then none else some word

theorem found?_inj {before' after' : List Char} :
    found? before after = found? before' after' ↔
      wordBetween before after = wordBetween before' after' := by
  unfold found?
  cases wordBetween before after <;> cases wordBetween before' after' <;> simp

theorem wordBetween_eq_nil_iff : wordBetween before after = [] ↔
    (∀ c ∈ before.getLast?, isDelimiter c = true) ∧ ∀ c ∈ after.head?, isDelimiter c = true := by
  have around := wordBetween_around_eq_iff (List.forall_mem_nil _) before after 0
  rwa [List.take_nil, List.drop_nil, List.append_nil] at around

/-- What follows a longest run is a delimiter, if there is anything. -/
theorem exists_split_takeWhile (text : List Char) :
    ∃ after, text = text.takeWhile (!isDelimiter ·) ++ after ∧
      ∀ c ∈ after.head?, isDelimiter c = true := by
  refine ⟨_, List.takeWhile_append_dropWhile.symm, fun c first => ?_⟩
  have stops := List.head?_dropWhile_not (!isDelimiter ·) text
  rw [Option.mem_def.mp first] at stops
  simpa using stops

theorem touches_found? (inside : k ≤ line.length) :
    Touches line k (found? (line.take k) (line.drop k)) := by
  by_cases empty : wordBetween (line.take k) (line.drop k) = []
  · obtain ⟨left, right⟩ := wordBetween_eq_nil_iff.mp empty
    rw [found?, empty]
    exact .none inside left right
  · obtain ⟨after, split, right⟩ := exists_split_takeWhile (line.drop k)
    obtain ⟨before, split', left⟩ := exists_split_takeWhile (line.take k).reverse
    have taken := congrArg List.reverse split'
    rw [List.reverse_reverse, List.reverse_append] at taken
    have width := congrArg List.length taken
    rw [List.length_take_of_le inside, List.length_append] at width
    have found : found? (line.take k) (line.drop k) =
        some (wordBetween (line.take k) (line.drop k)) := by
      simp [found?, empty]
    rw [found]
    have whole : line =
        before.reverse ++ (wordBetween (line.take k) (line.drop k) ++ after) := by
      unfold wordBetween
      rw [← List.append_assoc, ← List.append_assoc, ← taken, List.append_assoc, ← split,
        List.take_append_drop]
    refine .word whole ?_ ?_ empty ?_ ?_ right
    · omega
    · simp only [wordBetween, List.length_append]
      omega
    · intro c member
      unfold wordBetween at member
      rcases List.mem_append.mp member with earlier | later
      · simpa using List.mem_takeWhile_imp (List.mem_reverse.mp earlier)
      · simpa using List.mem_takeWhile_imp later
    · rwa [List.getLast?_reverse]

theorem Touches.eq_found? {answer : Option (List Char)} (touches : Touches line k answer) :
    answer = found? (line.take k) (line.drop k) := by
  cases touches with
  | @word before word after split starts stops present whole left right =>
      obtain ⟨j, rfl⟩ := Nat.exists_eq_add_of_le starts
      have inside : j ≤ word.length := by omega
      have taken : line.take (before.length + j) = before ++ word.take j := by
        rw [split, List.take_length_add_append, List.take_append_of_le_length inside]
      have dropped : line.drop (before.length + j) = word.drop j ++ after := by
        rw [split, List.drop_length_add_append, List.drop_append_of_le_length inside]
      have same := (wordBetween_around_eq_iff whole before after j).mpr ⟨left, right⟩
      simp [found?, taken, dropped, same, present]
  | none inside left right =>
      have empty := wordBetween_eq_nil_iff.mpr ⟨left, right⟩
      simp [found?, empty]

theorem touches_iff (inside : k ≤ line.length) {answer : Option (List Char)} :
    Touches line k answer ↔ answer = found? (line.take k) (line.drop k) :=
  ⟨Touches.eq_found?, fun same => same ▸ touches_found? inside⟩

/-- Characters that are added behind make the word longer if it goes up to them and they do not
begin with a delimiter. -/
theorem wordBetween_append_iff (before after more : List Char) :
    wordBetween before (after ++ more) = wordBetween before after ↔
      (∀ c ∈ more.head?, isDelimiter c = true) ∨ ∃ c ∈ after, isDelimiter c = true := by
  unfold wordBetween
  rw [List.append_cancel_left_eq, ← takeWhile_eq_nil_iff]
  by_cases whole : ∀ c ∈ after, (!isDelimiter c) = true
  · have unstopped : ¬ ∃ c ∈ after, isDelimiter c = true := by simpa using whole
    rw [List.takeWhile_append_of_pos whole, List.takeWhile_eq_self_iff.mpr whole,
      or_iff_left unstopped, List.append_right_eq_self]
  · have stopped : ∃ c ∈ after, isDelimiter c = true := by simpa using whole
    refine iff_of_true ?_ (.inr stopped)
    rw [List.takeWhile_append, if_neg]
    intro width
    have same := (List.takeWhile_prefix _).eq_of_length width
    exact whole (List.takeWhile_eq_self_iff.mp same)

theorem wordBetween_delimiters {last : List Char} (delimiters : ∀ c ∈ last, isDelimiter c = true)
    (body : List Char) {j : Nat} (positive : 0 < j) (inside : j ≤ last.length) :
    wordBetween (body ++ last.take j) (last.drop j) = [] := by
  have present : last.take j ≠ [] := by
    rw [← List.length_pos_iff, List.length_take_of_le inside]
    exact positive
  refine wordBetween_eq_nil_iff.mpr ⟨fun c final => ?_, fun c first => ?_⟩
  · rw [List.getLast?_append_of_ne_nil _ present] at final
    exact delimiters c (List.mem_of_mem_take (List.mem_of_getLast? final))
  · exact delimiters c (List.mem_of_mem_drop (List.mem_of_head? first))

/-- Inside of what ends a line, the word of the line is found if there is none and none begins. -/
theorem wordBetween_ending_iff (body : List Char) {last : List Char} (ends : LineEnd last) {j : Nat}
    (positive : 0 < j) (inside : j ≤ last.length) :
    wordBetween (body ++ last.take j) (last.drop j) = wordBetween body [] ↔
      (∀ c ∈ last.head?, isDelimiter c = true) ∧ ∀ c ∈ body.getLast?, isDelimiter c = true := by
  have nothing : [] = wordBetween body [] ↔ ∀ c ∈ body.getLast?, isDelimiter c = true := by
    rw [eq_comm, wordBetween_eq_nil_iff]
    simp
  cases ends with
  | none => exact absurd positive (Nat.not_lt.mpr inside)
  | pair =>
      have delimiters : ∀ c ∈ ['\r', '\n'], isDelimiter c = true := by simp [isDelimiter]
      rw [wordBetween_delimiters delimiters body positive inside, nothing]
      simp [isDelimiter]
  | @single c =>
      by_cases delimiter : isDelimiter c = true
      · rw [wordBetween_delimiters (List.forall_mem_singleton.mpr delimiter) body positive inside,
          nothing]
        simp [delimiter]
      · -- The character that ends the line belongs to the word.
        have one : j = 1 := Nat.le_antisymm inside positive
        have longer : wordBetween (body ++ [c]) [] = wordBetween body [] ++ [c] := by
          simp [wordBetween, delimiter]
        subst one
        refine iff_of_false (fun same => ?_) (by simp [delimiter])
        rw [List.take_succ_cons, List.take_zero, List.drop_succ_cons, List.drop_zero, longer] at same
        simp at same

end

section

variable {text line : List Char} {p : Position} (here : (allLines text)[p.line]? = some line)
include here

theorem wordAt_of_line (inside : p.column ≤ line.length) :
    wordAt text p = .ok (found? (line.take p.column) (line.drop p.column)) := by
  simp only [wordAt, here]
  rw [if_neg (Nat.not_lt.mpr inside), found?]

theorem wordAt_eq_error_iff : wordAt text p = .error .beyondLine ↔ line.length < p.column := by
  by_cases inside : p.column ≤ line.length
  · rw [wordAt_of_line here inside]
    exact iff_of_false (by simp) (Nat.not_lt.mpr inside)
  · simp only [wordAt, here]
    rw [if_pos (Nat.lt_of_not_le inside)]
    exact iff_of_true rfl (Nat.lt_of_not_le inside)

theorem wordAt_eq_ok_iff (inside : p.column ≤ line.length) (answer : Option (List Char)) :
    wordAt text p = .ok answer ↔ Touches line p.column answer := by
  rw [wordAt_of_line here inside, Except.ok.injEq, touches_iff inside, eq_comm]

/-- The word of a part of the line is the answer if the two words are the same. -/
theorem exists_wordAt_touches_iff (inside : p.column ≤ line.length) {part : List Char} {k : Nat}
    (within : k ≤ part.length) :
    (∃ answer, wordAt text p = .ok answer ∧ Touches part k answer) ↔
      wordBetween (line.take p.column) (line.drop p.column) =
        wordBetween (part.take k) (part.drop k) := by
  simp only [wordAt_of_line here inside, touches_iff within, Except.ok.injEq, exists_eq_right]
  exact found?_inj

end

/-- There is no word on a line that is not there. On a line that is, the word that touches the column
is the answer, up to the end of all that the line holds, and a failure beyond it. The word that
touches the column, or else the end of the line, without what ends the line, is the answer up to that
end if a delimiter ends the line or stands between, and behind it if delimiters stand on its two
sides. -/
theorem word_at_cursor_iff (text : List Char) (p : Position) :
    ((allLines text)[p.line]? = none → wordAt text p = .ok none) ∧
    ∀ line, (allLines text)[p.line]? = some line →
      let body := content line
      (wordAt text p = .error .beyondLine ↔ line.length < p.column) ∧
      (p.column ≤ line.length →
        ∀ answer, wordAt text p = .ok answer ↔ Touches line p.column answer) ∧
      ((∃ answer, wordAt text p = .ok answer ∧ Touches body (min p.column body.length) answer) ↔
        p.column ≤ body.length ∧ ((∀ c ∈ (ending line).head?, isDelimiter c = true) ∨
          ∃ c ∈ body.drop p.column, isDelimiter c = true) ∨
        body.length < p.column ∧ p.column ≤ line.length ∧
          (∀ c ∈ (ending line).head?, isDelimiter c = true) ∧
          ∀ c ∈ body.getLast?, isDelimiter c = true) := by
  refine ⟨fun missing => by simp [wordAt, missing], fun line here => ?_⟩
  intro body
  refine ⟨wordAt_eq_error_iff here, wordAt_eq_ok_iff here, ?_⟩
  have whole : line = body ++ ending line := (content_append_ending line).symm
  have width : line.length = body.length + (ending line).length := by
    rw [← List.length_append, ← whole]
  have taken := congrArg (List.take p.column) whole
  have dropped := congrArg (List.drop p.column) whole
  by_cases inside : p.column ≤ line.length
  · rw [exists_wordAt_touches_iff here inside (Nat.min_le_right _ _)]
    by_cases short : p.column ≤ body.length
    · rw [List.take_append_of_le_length short] at taken
      rw [List.drop_append_of_le_length short] at dropped
      rw [Nat.min_eq_left short, taken, dropped, wordBetween_append_iff]
      simp [short, Nat.not_lt.mpr short]
    · have long := Nat.lt_of_not_le short
      obtain ⟨j, column⟩ := Nat.exists_eq_add_of_lt long
      rw [Nat.add_assoc] at column
      have taken := taken.trans (by rw [column, List.take_length_add_append])
      have dropped := dropped.trans (by rw [column, List.drop_length_add_append])
      have ends : LineEnd (ending line) := lineEnd_of_mem_allLines (List.mem_of_getElem? here)
      rw [Nat.min_eq_right (Nat.le_of_lt long), taken, dropped, List.take_length, List.drop_length,
        wordBetween_ending_iff body ends (Nat.succ_pos j) (by omega)]
      simp [short, long, inside]
  · have failed := (wordAt_eq_error_iff here).mpr (Nat.lt_of_not_le inside)
    rw [failed]
    refine iff_of_false (by simp) ?_
    omega

/-- A place inside of a word, the place between the two characters that end a line, and a line that
is not there. -/
theorem word_at_cursor_iff_line_end :
    let text := "(f ab)\r\nc".toList
    let line := "(f ab)\r\n".toList
    (allLines text)[0]? = some line ∧ wordAt text ⟨0, 4⟩ = .ok (some "ab".toList) ∧
      (∃ answer, wordAt text ⟨0, 7⟩ = .ok answer ∧ Touches (content line) 6 answer) ∧
      wordAt text ⟨0, 9⟩ = .error .beyondLine ∧
      (allLines text)[2]? = none ∧ wordAt text ⟨2, 0⟩ = .ok none := by
  intro text line
  have here : (allLines text)[0]? = some line := by decide +kernel
  have missing : (allLines text)[2]? = none := by decide +kernel
  have split : line = ['(', 'f', ' '] ++ (['a', 'b'] ++ [')', '\r', '\n']) := by decide +kernel
  have inner : Touches line 4 (some ['a', 'b']) :=
    .word split (by decide) (by decide) (by decide) (by simp [isDelimiter]) (by simp [isDelimiter])
      (by simp [isDelimiter])
  obtain ⟨_, found, _⟩ := (word_at_cursor_iff text ⟨0, 4⟩).2 line here
  obtain ⟨_, _, behind⟩ := (word_at_cursor_iff text ⟨0, 7⟩).2 line here
  obtain ⟨beyond, _, _⟩ := (word_at_cursor_iff text ⟨0, 9⟩).2 line here
  have body : content line = ['(', 'f', ' ', 'a', 'b', ')'] := by decide +kernel
  have ends : ending line = ['\r', '\n'] := by decide +kernel
  have between : (content line).length < 7 ∧ 7 ≤ line.length ∧
      (∀ c ∈ (ending line).head?, isDelimiter c = true) ∧
      ∀ c ∈ (content line).getLast?, isDelimiter c = true := by
    refine ⟨by decide +kernel, by decide +kernel, ?_, ?_⟩
    · simp [ends, isDelimiter]
    · simp [body, isDelimiter]
  exact ⟨here, (found (by decide +kernel) _).mpr inner, behind.mpr (.inr between),
    beyond.mpr (by decide +kernel), missing, (word_at_cursor_iff text ⟨2, 0⟩).1 missing⟩

/-- A column beyond the end of a line, where a word ends. -/
theorem word_beyond_line_fails :
    let text := "(f ab".toList
    (allLines text)[0]? = some text ∧ Touches (content text) (min 9 (content text).length)
        (some "ab".toList) ∧
      wordAt text ⟨0, 9⟩ = .error .beyondLine := by
  intro text
  have split : content text = ['(', 'f', ' '] ++ (['a', 'b'] ++ []) := by decide +kernel
  have touches : Touches (content text) (min 9 (content text).length) (some ['a', 'b']) :=
    .word split (by decide +kernel) (by decide +kernel) (by decide) (by simp [isDelimiter])
      (by simp [isDelimiter]) nofun
  exact ⟨by decide +kernel, touches, by decide +kernel⟩

end MiniLisp.Text
