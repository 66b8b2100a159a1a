import Mathlib
import MiniLisp.Arithmetic

namespace MiniLisp

namespace Builtin

/-- Zero of either sign. -/
def IsZero (x : Float) : Prop :=
  x = 0.0 ∨ x = -0.0

/-- A zero stands among the divisors: the only number, or else all numbers behind the first. -/
def ZeroDivides : List Float → Prop
  | [x] => IsZero x
  | xs => ∃ y ∈ xs.tail, IsZero y

def comparisons : List Builtin :=
  [.equal, .less, .lessOrEqual, .greater, .greaterOrEqual]

/-- What a comparison asks of two neighbours. What is no number equals nothing, and the zeros of
both signs are equal. -/
def Relates : Builtin → Float → Float → Prop
  | .equal, x, y => (x == y) = true
  | .less, x, y => x < y
  | .lessOrEqual, x, y => x ≤ y
  | .greater, x, y => y < x
  | .greaterOrEqual, x, y => y ≤ x
  | .add, _, _ | .subtract, _, _ | .multiply, _, _ | .divide, _, _ => False

/-- The values of numbers that are enough and are not divided by zero. Sums, products, differences
and quotients are taken from the left and rounded at every step; what rounding loses is not made
good later. -/
inductive HasValue : Builtin → List Float → Value → Prop where
  | sum : HasValue .add xs (.number (xs.foldl (· + ·) 0.0))
  | product : HasValue .multiply xs (.number (xs.foldl (· * ·) 1.0))
  | negation : HasValue .subtract [x] (.number (-x))
  | difference : HasValue .subtract (x :: y :: ys) (.number ((y :: ys).foldl (· - ·) x))
  | reciprocal (divides : ¬ ZeroDivides [x]) : HasValue .divide [x] (.number (1.0 / x))
  | quotient (divides : ¬ ZeroDivides (x :: y :: ys)) :
      HasValue .divide (x :: y :: ys) (.number ((y :: ys).foldl (· / ·) x))
  | comparison (comparison : b ∈ comparisons) (pair : 2 ≤ xs.length)
      (neighbours : result = true ↔ xs.IsChain b.Relates) : HasValue b xs (.boolean result)

/-- What arguments come to. No two of the rules apply to the same arguments. -/
inductive Outcome : Builtin → List Value → Except Error Value → Prop where
  | notNumber {before : List Float} (other : ∀ x, v ≠ .number x) :
      Outcome b (before.map .number ++ v :: after) (.error (.notNumber b v))
  | tooFew {xs : List Float} (few : xs.length < b.leastArguments) :
      Outcome b (xs.map .number) (.error (.tooFewArguments b))
  | divisionByZero (zero : ZeroDivides xs) :
      Outcome .divide (xs.map .number) (.error .divisionByZero)
  | value (has : b.HasValue xs v) : Outcome b (xs.map .number) (.ok v)

theorem numbers_map (b : Builtin) (xs : List Float) : b.numbers (xs.map .number) = .ok xs := by
  induction xs with
  | nil => rfl
  | cons x xs ih =>
      rw [List.map_cons, numbers, ih]
      rfl

theorem numbers_of_other (b : Builtin) (before : List Float) {v : Value} (after : List Value)
    (other : ∀ x, v ≠ .number x) :
    b.numbers (before.map .number ++ v :: after) = .error (.notNumber b v) := by
  induction before with
  | nil =>
      rw [List.map_nil, List.nil_append, numbers]
      exact other
  | cons x before ih =>
      rw [List.map_cons, List.cons_append, numbers, ih]
      rfl

theorem exists_numbers (args : List Value) :
    (∃ xs : List Float, args = xs.map .number) ∨
      ∃ (before : List Float) (v : Value) (after : List Value),
        args = before.map .number ++ v :: after ∧ ∀ x, v ≠ .number x := by
  induction args with
  | nil => exact .inl ⟨[], rfl⟩
  | cons v args ih =>
      by_cases number : ∃ x, v = .number x
      · obtain ⟨x, rfl⟩ := number
        obtain ⟨xs, rfl⟩ | ⟨before, w, after, rfl, other⟩ := ih
        · exact .inl ⟨x :: xs, rfl⟩
        · exact .inr ⟨x :: before, w, after, rfl, other⟩
      · exact .inr ⟨[], v, args, rfl, fun x same => number ⟨x, same⟩⟩

theorem beq_zero_iff {x : Float} : (x == 0.0) = true ↔ IsZero x := by
  have zero : (0.0 : Float) = 0 := by decide +kernel
  have number : (0 : Float) ≠ Float.nan ∧ (-0 : Float) ≠ Float.nan := by decide +kernel
  unfold IsZero
  rw [Float.beq_iff_ne_nan_and_eq, zero]
  constructor
  · rintro ⟨_, _, rfl | ⟨rfl, impossible⟩ | ⟨rfl, _⟩⟩
    · exact .inl rfl
    · exact .inl rfl
    · exact .inr rfl
  · rintro (rfl | rfl)
    · exact ⟨number.1, number.1, .inl rfl⟩
    · exact ⟨number.2, number.1, .inr (.inr ⟨rfl, rfl⟩)⟩

theorem divideBy_of_zero {y : Float} (zero : IsZero y) (x : Float) :
    divideBy x y = .error .divisionByZero :=
  if_pos (beq_zero_iff.mpr zero)

theorem divideBy_of_not_zero {y : Float} (divides : ¬ IsZero y) (x : Float) :
    divideBy x y = .ok (x / y) :=
  if_neg fun zero => divides (beq_zero_iff.mp zero)

theorem foldlM_divideBy_of_not_zero {ys : List Float} (divide : ∀ y ∈ ys, ¬ IsZero y) (x : Float) :
    ys.foldlM divideBy x = .ok (ys.foldl (· / ·) x) := by
  induction ys generalizing x with
  | nil => rfl
  | cons y ys ih =>
      obtain ⟨here, later⟩ := List.forall_mem_cons.mp divide
      rw [List.foldlM_cons, divideBy_of_not_zero here]
      exact ih later (x / y)

theorem foldlM_divideBy_of_zero {ys : List Float} (zero : ∃ y ∈ ys, IsZero y) (x : Float) :
    ys.foldlM divideBy x = .error .divisionByZero := by
  induction ys generalizing x with
  | nil => simp at zero
  | cons y ys ih =>
      rw [List.foldlM_cons]
      by_cases here : IsZero y
      · rw [divideBy_of_zero here]
        rfl
      · rw [divideBy_of_not_zero here]
        exact ih (by simpa [here] using zero) (x / y)

theorem chained_iff_isChain (holds : Float → Float → Bool) (xs : List Float) :
    chained holds xs = true ↔ xs.IsChain fun x y => holds x y = true := by
  induction xs with
  | nil => simp [chained]
  | cons x xs ih =>
      cases xs with
      | nil => simp [chained]
      | cons y ys => rw [chained, Bool.and_eq_true, ih, List.isChain_cons_cons]

theorem exists_relation {b : Builtin} (comparison : b ∈ comparisons) :
    ∃ holds, b.relation? = some holds ∧ ∀ x y, holds x y = true ↔ b.Relates x y := by
  cases b with
  | equal => exact ⟨_, rfl, fun _ _ => Iff.rfl⟩
  | less | lessOrEqual | greater | greaterOrEqual =>
      exact ⟨_, rfl, fun _ _ => decide_eq_true_iff⟩
  | add | subtract | multiply | divide => exact absurd comparison (by decide)

theorem compute_of_relation? {b : Builtin} {holds : Float → Float → Bool}
    (relation : b.relation? = some holds) {xs : List Float} (pair : 2 ≤ xs.length) :
    b.compute xs = .ok (.boolean (chained holds xs)) := by
  match xs with
  | [] | [_] => simp at pair
  | x :: y :: ys => cases b <;> first | contradiction | (cases relation; rfl)

theorem compute_comparison {b : Builtin} (comparison : b ∈ comparisons) {xs : List Float}
    (pair : 2 ≤ xs.length) : ∃ result : Bool, b.compute xs = .ok (.boolean result) ∧
      (result = true ↔ xs.IsChain b.Relates) := by
  obtain ⟨holds, relation, relates⟩ := exists_relation comparison
  refine ⟨chained holds xs, compute_of_relation? relation pair, ?_⟩
  rw [chained_iff_isChain]
  simp only [relates]

theorem HasValue.exists_of_comparison {b : Builtin} (comparison : b ∈ comparisons) {xs : List Float}
    (pair : 2 ≤ xs.length) : ∃ v, b.HasValue xs v := by
  obtain ⟨result, _, neighbours⟩ := compute_comparison comparison pair
  exact ⟨.boolean result, .comparison comparison pair neighbours⟩

theorem HasValue.compute {b : Builtin} {xs : List Float} {v : Value} (has : b.HasValue xs v) :
    b.compute xs = .ok v := by
  cases has with
  | sum | product | negation | difference => rfl
  | reciprocal divides =>
      change (divideBy _ _).map _ = _
      rw [divideBy_of_not_zero divides]
      rfl
  | @quotient x y ys divides =>
      have divide : ∀ z ∈ y :: ys, ¬ IsZero z := fun z member zero => divides ⟨z, member, zero⟩
      change ((y :: ys).foldlM divideBy x).map _ = _
      rw [foldlM_divideBy_of_not_zero divide]
      rfl
  | comparison comparison pair neighbours =>
      obtain ⟨result, computed, related⟩ := compute_comparison comparison pair
      rw [computed, Bool.eq_iff_iff.mpr (related.trans neighbours.symm)]

theorem compute_of_few {b : Builtin} {xs : List Float} (few : xs.length < b.leastArguments) :
    b.compute xs = .error (.tooFewArguments b) := by
  cases b with
  | add | multiply => contradiction
  | subtract | divide =>
      cases List.length_eq_zero_iff.mp (Nat.lt_one_iff.mp few)
      rfl
  | equal | less | lessOrEqual | greater | greaterOrEqual =>
      match xs with
      | [] | [_] => rfl
      | _ :: _ :: _ => simp [leastArguments] at few

theorem compute_of_zero {xs : List Float} (zero : ZeroDivides xs) :
    compute .divide xs = .error .divisionByZero := by
  match xs with
  | [] => simp [ZeroDivides] at zero
  | [x] =>
      change (divideBy _ _).map _ = _
      rw [divideBy_of_zero zero]
      rfl
  | x :: y :: ys =>
      have zero : ∃ z ∈ y :: ys, IsZero z := zero
      change ((y :: ys).foldlM divideBy x).map _ = _
      rw [foldlM_divideBy_of_zero zero]
      rfl

theorem exists_value {b : Builtin} {xs : List Float} (enough : b.leastArguments ≤ xs.length)
    (divides : ¬ (b = .divide ∧ ZeroDivides xs)) : ∃ v, b.HasValue xs v := by
  cases b with
  | add => exact ⟨_, .sum⟩
  | multiply => exact ⟨_, .product⟩
  | subtract =>
      match xs with
      | [] => contradiction
      | [x] => exact ⟨_, .negation⟩
      | x :: y :: ys => exact ⟨_, .difference⟩
  | divide =>
      have divides : ¬ ZeroDivides xs := fun zero => divides ⟨rfl, zero⟩
      match xs with
      | [] => contradiction
      | [x] => exact ⟨_, .reciprocal divides⟩
      | x :: y :: ys => exact ⟨_, .quotient divides⟩
  | equal | less | lessOrEqual | greater | greaterOrEqual =>
      exact HasValue.exists_of_comparison (by decide) enough

theorem compute_arity_iff {b : Builtin} {xs : List Float} :
    (∃ e, b.compute xs = .error e ∧ e.kind = .arity) ↔ xs.length < b.leastArguments := by
  constructor
  · rintro ⟨e, failed, arity⟩
    apply Classical.byContradiction
    intro enough
    by_cases zero : b = .divide ∧ ZeroDivides xs
    · obtain ⟨rfl, zero⟩ := zero
      rw [compute_of_zero zero] at failed
      cases failed
      contradiction
    · obtain ⟨v, has⟩ := exists_value (Nat.le_of_not_lt enough) zero
      rw [has.compute] at failed
      contradiction
  · intro few
    exact ⟨_, compute_of_few few, rfl⟩

theorem compute_division_iff {b : Builtin} {xs : List Float} :
    b.compute xs = .error .divisionByZero ↔ b = .divide ∧ ZeroDivides xs := by
  constructor
  · intro failed
    apply Classical.byContradiction
    intro divides
    by_cases few : xs.length < b.leastArguments
    · rw [compute_of_few few] at failed
      cases failed
    · obtain ⟨v, has⟩ := exists_value (Nat.le_of_not_lt few) divides
      rw [has.compute] at failed
      contradiction
  · rintro ⟨rfl, zero⟩
    exact compute_of_zero zero

theorem Outcome.call {b : Builtin} {args : List Value} {outcome : Except Error Value}
    (comes : b.Outcome args outcome) : b.call args = outcome := by
  unfold Builtin.call
  cases comes with
  | notNumber other => rw [numbers_of_other b _ _ other]; rfl
  | tooFew few => rw [numbers_map]; exact compute_of_few few
  | divisionByZero zero => rw [numbers_map]; exact compute_of_zero zero
  | value has => rw [numbers_map]; exact has.compute

theorem exists_outcome (b : Builtin) (args : List Value) : ∃ outcome, b.Outcome args outcome := by
  obtain ⟨xs, rfl⟩ | ⟨before, v, after, rfl, other⟩ := exists_numbers args
  · by_cases few : xs.length < b.leastArguments
    · exact ⟨_, .tooFew few⟩
    by_cases zero : b = .divide ∧ ZeroDivides xs
    · obtain ⟨rfl, zero⟩ := zero
      exact ⟨_, .divisionByZero zero⟩
    · obtain ⟨v, has⟩ := exists_value (Nat.le_of_not_lt few) zero
      exact ⟨_, .value has⟩
  · exact ⟨_, .notNumber other⟩

theorem outcome_iff {b : Builtin} {args : List Value} {outcome : Except Error Value} :
    b.Outcome args outcome ↔ b.call args = outcome := by
  constructor
  · exact Outcome.call
  · rintro rfl
    obtain ⟨outcome, comes⟩ := b.exists_outcome args
    rwa [comes.call]

theorem call_map (b : Builtin) (xs : List Float) : b.call (xs.map .number) = b.compute xs := by
  rw [call, numbers_map]
  rfl

theorem call_of_other (b : Builtin) (before : List Float) {v : Value} (after : List Value)
    (other : ∀ x, v ≠ .number x) :
    b.call (before.map .number ++ v :: after) = .error (.notNumber b v) :=
  Outcome.call (.notNumber other)

theorem call_type_iff {b : Builtin} {args : List Value} :
    (∃ e, b.call args = .error e ∧ e.kind = .type) ↔ ∃ v ∈ args, ∀ x, v ≠ .number x := by
  constructor
  · rintro ⟨e, failed, type⟩
    cases outcome_iff.mpr failed with
    | notNumber other => exact ⟨_, by simp, other⟩
    | tooFew | divisionByZero => contradiction
  · rintro ⟨v, member, other⟩
    obtain ⟨xs, rfl⟩ | ⟨before, w, after, rfl, other⟩ := exists_numbers args
    · obtain ⟨x, _, rfl⟩ := List.mem_map.mp member
      exact absurd rfl (other x)
    · exact ⟨_, call_of_other b before after other, rfl⟩

/-- Differences and quotients: what two numbers or more come to may take their place. -/
theorem HasValue.compute_append {b : Builtin} {xs ys : List Float} {v : Value}
    (has : b.HasValue xs v) (leftward : b = .subtract ∨ b = .divide) (pair : 2 ≤ xs.length)
    (more : ys ≠ []) : ∃ q, v = .number q ∧ b.compute (xs ++ ys) = b.compute (q :: ys) := by
  obtain ⟨z, zs, rfl⟩ := List.exists_cons_of_ne_nil more
  cases has with
  | sum | product => simp at leftward
  | negation | reciprocal => simp at pair
  | @difference x y xs =>
      refine ⟨_, rfl, ?_⟩
      change Except.ok (Value.number ((y :: xs ++ z :: zs).foldl (· - ·) x)) = _
      rw [List.foldl_append]
      rfl
  | @quotient x y xs divides =>
      have divide : ∀ w ∈ y :: xs, ¬ IsZero w := fun w member zero => divides ⟨w, member, zero⟩
      refine ⟨_, rfl, ?_⟩
      change ((y :: xs ++ z :: zs).foldlM divideBy x).map Value.number = _
      rw [List.foldlM_append, foldlM_divideBy_of_not_zero divide]
      rfl
  | comparison comparison => obtain rfl | rfl := leftward <;> exact absurd comparison (by decide)

theorem call_append {b : Builtin} {xs ys : List Value} {v : Value}
    (leftward : b = .subtract ∨ b = .divide) (pair : 2 ≤ xs.length) (more : ys ≠ [])
    (front : b.call xs = .ok v) : b.call (xs ++ ys) = b.call (v :: ys) := by
  cases outcome_iff.mpr front with
  | @value _ ns _ has =>
      rw [List.length_map] at pair
      obtain ⟨ms, rfl⟩ | ⟨before, w, after, rfl, other⟩ := exists_numbers ys
      · obtain ⟨q, rfl, together⟩ := has.compute_append leftward pair (by simpa using more)
        rw [← List.map_append, ← List.map_cons, call_map, call_map, together]
      · -- Both sides are refused for the same argument, whatever the numbers before it come to.
        obtain ⟨q, rfl, _⟩ := has.compute_append leftward pair (List.cons_ne_nil 0 [])
        rw [← List.append_assoc, ← List.map_append, ← List.cons_append, ← List.map_cons,
          call_of_other b _ _ other, call_of_other b _ _ other]

/-- Arguments come to what the rules of `Outcome` say and to nothing else. A type error is due to an
argument that is no number, whatever else is wrong; numbers alone meet no failure but for their
count and for a zero that divides. Differences and quotients are taken from the left. -/
theorem builtin_outcomes :
    (∀ (b : Builtin) (args : List Value) (outcome : Except Error Value),
      b.call args = outcome ↔ b.Outcome args outcome) ∧
    (∀ (b : Builtin) (args : List Value),
      (∃ e, b.call args = .error e ∧ e.kind = .type) ↔ ∃ v ∈ args, ∀ x, v ≠ .number x) ∧
    (∀ (b : Builtin) (xs : List Float),
      ((∃ e, b.call (xs.map .number) = .error e ∧ e.kind = .arity) ↔
        xs.length < b.leastArguments) ∧
      (b.call (xs.map .number) = .error .divisionByZero ↔ b = .divide ∧ ZeroDivides xs)) ∧
    ∀ (b : Builtin) (xs ys : List Value) (v : Value), b = .subtract ∨ b = .divide →
      2 ≤ xs.length → ys ≠ [] → b.call xs = .ok v → b.call (xs ++ ys) = b.call (v :: ys) := by
  refine ⟨fun _ _ _ => outcome_iff.symm, fun _ _ => call_type_iff, ?_, fun _ _ _ _ => call_append⟩
  intro b xs
  rw [call_map]
  exact ⟨compute_arity_iff, compute_division_iff⟩

/-- A division that is wrong in two ways, and a difference whose front has been taken. -/
theorem builtin_outcomes_twofold :
    Builtin.divide.call [.number 8, .number 0, .boolean true] =
      .error (.notNumber .divide (.boolean true)) ∧
    (2 ≤ [Value.number 10, .number 3].length ∧ [Value.number 2] ≠ [] ∧
      Builtin.subtract.call [.number 10, .number 3] = .ok (.number 7)) ∧
    Builtin.subtract.call ([.number 10, .number 3] ++ [.number 2]) =
      Builtin.subtract.call [.number 7, .number 2] := by
  have front : Builtin.subtract.call [.number 10, .number 3] = .ok (.number 7) := by
    have seven : (10 : Float) - 3 = 7 := by decide +kernel
    exact congrArg (Except.ok ∘ Value.number) seven
  have refused : Outcome .divide (List.map .number [8, 0] ++ [.boolean true])
      (.error (.notNumber .divide (.boolean true))) :=
    .notNumber fun _ => Value.noConfusion
  refine ⟨?_, ⟨by decide, List.cons_ne_nil _ _, front⟩, ?_⟩
  · exact (builtin_outcomes.1 .divide _ _).mpr refused
  · exact builtin_outcomes.2.2.2 _ _ _ _ (.inl rfl) (by decide) (List.cons_ne_nil _ _) front

end Builtin

end MiniLisp
