import Mathlib.Data.List.Induction
import MiniLisp.Proofs.Token.Words

/-! # Parentheses that match

The height of a text is the number of parentheses that it opens without closing them. A text whose
beginnings all have a height of zero or more closes nothing that it has not opened; if its own
height is zero, all that it opens is closed too. By these counts alone a text is cut at the first
closing parenthesis that matches none, at the first opening one that none matches, or at the last.
-/

namespace MiniLisp.Text

def height (text : List Char) : Int :=
  (text.count '(' : Int) - text.count ')'

/-- No beginning of the text closes more parentheses than it opens. -/
def Steady (text : List Char) : Prop :=
  ∀ n, 0 ≤ height (text.take n)

structure Balanced (text : List Char) : Prop where
  steady : Steady text
  settled : height text = 0

def Plain (text : List Char) : Prop :=
  ∀ c ∈ text, ¬ Token.isParenthesis c

/-- The form of balanced texts. -/
inductive Nested : List Char → Prop where
  | plain (plain : Plain text) : Nested text
  | group (plain : Plain before) (inside : Nested middle) (outside : Nested after) :
      Nested (before ++ '(' :: (middle ++ ')' :: after))

/-- The closing parenthesis that ends the shortest beginning which closes more than it opens. -/
structure FirstStray (text : List Char) (k : Nat) : Prop where
  closing : text[k]? = some ')'
  lower : height (text.take (k + 1)) < 0
  earlier : ∀ n ≤ k, 0 ≤ height (text.take n)

/-- An opening parenthesis that nothing after it closes, and after it no other such. -/
structure LastUnclosed (text : List Char) (k : Nat) : Prop where
  opening : text[k]? = some '('
  unclosed : Steady (text.drop (k + 1))
  later : ∀ j, k < j → text[j]? = some '(' → ¬ Steady (text.drop (j + 1))

section

variable {text before after : List Char} {c : Char}

@[simp]
theorem height_nil : height [] = 0 := rfl

@[simp]
theorem height_append (text after : List Char) :
    height (text ++ after) = height text + height after := by
  simp only [height, List.count_append]
  omega

@[simp]
theorem height_opening (text : List Char) : height ('(' :: text) = height text + 1 := by
  simp [height]
  omega

@[simp]
theorem height_closing (text : List Char) : height (')' :: text) = height text - 1 := by
  simp [height]
  omega

theorem Plain.height_eq (plain : Plain text) : height text = 0 := by
  have noOpening : text.count '(' = 0 :=
    List.count_eq_zero.mpr fun member => plain _ member (.inl rfl)
  have noClosing : text.count ')' = 0 :=
    List.count_eq_zero.mpr fun member => plain _ member (.inr rfl)
  simp [height, noOpening, noClosing]

theorem height_other (other : ¬ Token.isParenthesis c) (text : List Char) :
    height (c :: text) = height text := by
  have alone : height [c] = 0 := Plain.height_eq (List.forall_mem_singleton.mpr other)
  have split := height_append [c] text
  rwa [alone, Int.zero_add] at split

theorem steady_append :
    Steady (before ++ after) ↔ Steady before ∧ ∀ n, 0 ≤ height before + height (after.take n) := by
  constructor
  · intro steady
    refine ⟨fun n => ?_, fun n => ?_⟩
    · have start := steady (min n before.length)
      rwa [List.take_append_of_le_length (Nat.min_le_right _ _), ← List.take_eq_take_min] at start
    · have start := steady (before.length + n)
      rwa [List.take_length_add_append, height_append] at start
  · rintro ⟨first, second⟩ n
    obtain short | long := Nat.le_total n before.length
    · rw [List.take_append_of_le_length short]
      exact first n
    · obtain ⟨m, rfl⟩ := Nat.exists_eq_add_of_le long
      rw [List.take_length_add_append, height_append]
      exact second m

theorem Steady.height_nonneg (steady : Steady text) : 0 ≤ height text := by
  have whole := steady text.length
  rwa [List.take_length] at whole

theorem steady_concat : Steady (text ++ [c]) ↔ Steady text ∧ 0 ≤ height (text ++ [c]) := by
  refine ⟨fun steady => ⟨(steady_append.mp steady).1, steady.height_nonneg⟩, ?_⟩
  rintro ⟨steady, last⟩
  refine steady_append.mpr ⟨steady, fun n => ?_⟩
  cases n with
  | zero => simpa using steady.height_nonneg
  | succ n => simpa using last

/-- The beginnings up to the length of a text are all that it has. -/
theorem steady_iff : Steady text ↔ ∀ n ≤ text.length, 0 ≤ height (text.take n) := by
  refine ⟨fun steady n _ => steady n, fun checked n => ?_⟩
  by_cases inside : n ≤ text.length
  · exact checked n inside
  · have whole := checked text.length (Nat.le_refl _)
    rwa [List.take_length, ← List.take_of_length_le (Nat.le_of_not_le inside)] at whole

instance (text : List Char) : Decidable (Steady text) :=
  decidable_of_iff _ steady_iff.symm

instance (text : List Char) : Decidable (Balanced text) :=
  decidable_of_iff (Steady text ∧ height text = 0) ⟨fun ⟨s, h⟩ => ⟨s, h⟩, fun ⟨s, h⟩ => ⟨s, h⟩⟩

theorem steady_nil : Steady [] := fun _ => by simp

theorem balanced_nil : Balanced [] := ⟨steady_nil, rfl⟩

theorem Plain.steady (plain : Plain text) : Steady text := by
  intro n
  have start : Plain (text.take n) := fun c member => plain c (List.mem_of_mem_take member)
  exact Int.le_of_eq start.height_eq.symm

theorem Plain.balanced (plain : Plain text) : Balanced text := ⟨plain.steady, plain.height_eq⟩

/-- A character changes the height by one if it is a parenthesis. -/
theorem height_concat (text : List Char) (c : Char) :
    c = '(' ∧ height (text ++ [c]) = height text + 1 ∨
    c = ')' ∧ height (text ++ [c]) = height text - 1 ∨
    height (text ++ [c]) = height text := by
  by_cases opening : c = '('
  · subst opening
    exact .inl ⟨rfl, by simp⟩
  · by_cases closing : c = ')'
    · subst closing
      refine .inr (.inl ⟨rfl, ?_⟩)
      rw [height_append, height_closing, height_nil]
      omega
    · refine .inr (.inr ?_)
      rw [height_append, height_other (not_or.mpr ⟨opening, closing⟩), height_nil, Int.add_zero]

theorem Balanced.append_opening (balanced : Balanced before) (steady : Steady after) :
    Steady (before ++ '(' :: after) := by
  refine steady_append.mpr ⟨balanced.steady, fun n => ?_⟩
  rw [balanced.settled]
  cases n with
  | zero => simp
  | succ n =>
      have start := steady n
      rw [List.take_succ_cons, height_opening]
      omega

end

/-- The first closing parenthesis that matches none. -/
theorem exists_stray {text : List Char} (unsteady : ¬ Steady text) :
    ∃ before after, text = before ++ ')' :: after ∧ Balanced before := by
  induction text using List.reverseRecOn with
  | nil => exact absurd steady_nil unsteady
  | append_singleton text c ih =>
      by_cases steady : Steady text
      · have start := steady.height_nonneg
        rw [steady_concat, not_and, Int.not_le] at unsteady
        have lower := unsteady steady
        obtain ⟨_, change⟩ | ⟨rfl, change⟩ | change := height_concat text c
        · omega
        · exact ⟨text, [], rfl, steady, by omega⟩
        · omega
      · obtain ⟨before, after, rfl, balanced⟩ := ih steady
        exact ⟨before, after ++ [c], by simp, balanced⟩

/-- The first opening parenthesis that none matches. -/
theorem Steady.first_unclosed {text : List Char} (steady : Steady text) :
    Balanced text ∨
      ∃ before after, text = before ++ '(' :: after ∧ Balanced before ∧ Steady after := by
  induction text using List.reverseRecOn with
  | nil => exact .inl balanced_nil
  | append_singleton text c ih =>
      obtain ⟨earlier, last⟩ := steady_concat.mp steady
      obtain balanced | ⟨before, after, rfl, balanced, later⟩ := ih earlier
      · have settled := balanced.settled
        obtain ⟨rfl, _⟩ | ⟨_, change⟩ | change := height_concat text c
        · exact .inr ⟨text, [], rfl, balanced, steady_nil⟩
        · omega
        · exact .inl ⟨steady, by omega⟩
      · by_cases still : Steady (after ++ [c])
        · exact .inr ⟨before, after ++ [c], by simp, balanced, still⟩
        · -- The character closes the parenthesis that was open until now.
          refine .inl ⟨steady, ?_⟩
          have settled := balanced.settled
          have start := later.height_nonneg
          rw [steady_concat, not_and, Int.not_le] at still
          have lower := still later
          rw [List.append_assoc, List.cons_append, height_append, height_opening] at last ⊢
          omega

/-- A steady text is balanced texts with an opening parenthesis between any two. -/
@[elab_as_elim]
theorem Steady.induct {motive : List Char → Prop} {text : List Char} (steady : Steady text)
    (balanced : ∀ text, Balanced text → motive text)
    (unclosed : ∀ before after, Balanced before → Steady after → motive after →
      motive (before ++ '(' :: after)) : motive text := by
  induction size : text.length using Nat.strongRecOn generalizing text with
  | _ n ih =>
      obtain whole | ⟨before, after, rfl, first, later⟩ := steady.first_unclosed
      · exact balanced text whole
      · have shorter : after.length < n := by
          rw [← size, List.length_append, List.length_cons]
          omega
        exact unclosed before after first later (ih _ shorter later rfl)

/-- The last opening parenthesis that none matches. -/
theorem Steady.last_unclosed {text : List Char} (steady : Steady text) :
    Balanced text ∨
      ∃ before after, text = before ++ '(' :: after ∧ Steady before ∧ Balanced after := by
  refine Steady.induct steady (fun text balanced => .inl balanced) ?_
  intro before after balanced _ later
  obtain closed | ⟨middle, last, rfl, inside, closed⟩ := later
  · exact .inr ⟨before, after, rfl, balanced.steady, closed⟩
  · exact .inr ⟨before ++ '(' :: middle, last, by simp, balanced.append_opening inside, closed⟩

theorem Balanced.firstStray {before : List Char} (balanced : Balanced before) (after : List Char) :
    FirstStray (before ++ ')' :: after) before.length where
  closing := by simp
  lower := by
    have settled := balanced.settled
    rw [List.take_length_add_append]
    simp [settled]
  earlier n inside := by
    rw [List.take_append_of_le_length inside]
    exact balanced.steady n

theorem Balanced.lastUnclosed {after : List Char} (balanced : Balanced after)
    (before : List Char) : LastUnclosed (before ++ '(' :: after) before.length where
  opening := by simp
  unclosed := by
    rw [List.drop_length_add_append]
    exact balanced.steady
  later j further found steady := by
    obtain ⟨i, rfl⟩ := Nat.exists_eq_add_of_lt further
    have place : before.length + i + 1 - before.length = i + 1 := by omega
    rw [List.getElem?_append_right (Nat.le_of_lt further), place, List.getElem?_cons_succ] at found
    obtain ⟨inside, here⟩ := List.getElem?_eq_some_iff.mp found
    have split : after = after.take i ++ '(' :: after.drop (i + 1) := by
      rw [← here, List.getElem_cons_drop, List.take_append_drop]
    have rest : (before ++ '(' :: after).drop (before.length + i + 1 + 1) = after.drop (i + 1) := by
      rw [Nat.add_assoc, Nat.add_assoc, List.drop_length_add_append]
      rfl
    rw [rest] at steady
    have settled := balanced.settled
    rw [split, height_append, height_opening] at settled
    have start := balanced.steady i
    have remaining := steady.height_nonneg
    omega

theorem FirstStray.eq {text : List Char} {j k : Nat} (first : FirstStray text j)
    (second : FirstStray text k) : j = k := by
  apply Nat.le_antisymm
  · apply Nat.le_of_not_lt
    intro less
    exact Int.not_lt.mpr (first.earlier (k + 1) less) second.lower
  · apply Nat.le_of_not_lt
    intro less
    exact Int.not_lt.mpr (second.earlier (j + 1) less) first.lower

theorem LastUnclosed.eq {text : List Char} {j k : Nat} (first : LastUnclosed text j)
    (second : LastUnclosed text k) : j = k := by
  apply Nat.le_antisymm
  · exact Nat.le_of_not_lt fun less => second.later j less first.opening first.unclosed
  · exact Nat.le_of_not_lt fun less => first.later k less second.opening second.unclosed

theorem plain_or_first_parenthesis (text : List Char) :
    Plain text ∨ ∃ before c after, text = before ++ c :: after ∧ Plain before ∧
      Token.isParenthesis c := by
  induction text with
  | nil => exact .inl nofun
  | cons d text ih =>
      by_cases parenthesis : Token.isParenthesis d
      · exact .inr ⟨[], d, text, rfl, nofun, parenthesis⟩
      · obtain plain | ⟨before, c, after, rfl, plain, found⟩ := ih
        · exact .inl (List.forall_mem_cons.mpr ⟨parenthesis, plain⟩)
        · have later : Plain (d :: before) := List.forall_mem_cons.mpr ⟨parenthesis, plain⟩
          exact .inr ⟨d :: before, c, after, rfl, later, found⟩

theorem Balanced.nested {text : List Char} (balanced : Balanced text) : Nested text := by
  induction size : text.length using Nat.strongRecOn generalizing text with
  | _ n ih =>
      have ⟨steady, settled⟩ := balanced
      obtain plain | ⟨before, c, rest, rfl, plain, parenthesis⟩ := plain_or_first_parenthesis text
      · exact .plain plain
      have start := (steady_append.mp steady).2 1
      rw [height_append, plain.height_eq] at settled
      rw [plain.height_eq] at start
      obtain rfl | rfl := parenthesis
      · rw [height_opening] at settled
        have unsteady : ¬ Steady rest := by
          intro steady
          have := steady.height_nonneg
          omega
        obtain ⟨middle, after, rfl, inside⟩ := exists_stray unsteady
        have outside : Balanced after := by
          have closed := inside.settled
          have split : before ++ '(' :: (middle ++ ')' :: after) =
              (before ++ '(' :: (middle ++ [')'])) ++ after := by simp
          rw [split, steady_append] at steady
          refine ⟨fun n => ?_, ?_⟩
          · have later := steady.2 n
            simp [plain.height_eq, closed] at later
            omega
          · simp [closed] at settled
            omega
        simp only [List.length_append, List.length_cons] at size
        exact .group plain (ih _ (by omega) inside rfl) (ih _ (by omega) outside rfl)
      · simp at start

end MiniLisp.Text
