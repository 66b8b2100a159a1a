import MiniLisp.Number.Shortest
import MiniLisp.Proofs.Number.Parts

/-! # What rounds to a double

The rationals that round to a double form an interval around its value. The intervals of different
magnitudes have no rational in common: where two of them meet, one mantissa is odd, and its interval
is open. So a decimal that reads back tells the double, and the digits found by
`Magnitude.shortest` are such a decimal.
-/

namespace MiniLisp.Number

namespace Magnitude

/-- A quarter of the distance to the next value above. -/
def quarter (x : Magnitude) : ℚ :=
  2 ^ x.exponent / 4

/-- How many quarters it is to halfway down to the next value below. -/
def lowQuarters (x : Magnitude) : Int :=
  4 * x.mantissa - if x.narrowBelow then 1 else 2

/-- How many quarters it is to halfway up to the next value above. -/
def highQuarters (x : Magnitude) : Int :=
  4 * x.mantissa + 2

def value (x : Magnitude) : ℚ :=
  x.mantissa * 2 ^ x.exponent

/-- The rational lies between the two halfway points. These count for the even mantissa. -/
def Rounds (x : Magnitude) (q : ℚ) : Prop :=
  if x.mantissa % 2 = 0 then x.lowQuarters * x.quarter ≤ q ∧ q ≤ x.highQuarters * x.quarter
  else x.lowQuarters * x.quarter < q ∧ q < x.highQuarters * x.quarter

section

variable {x y : Magnitude} {q : ℚ}

theorem quarter_pos (x : Magnitude) : 0 < x.quarter := by
  unfold quarter
  positivity

theorem Rounds.within (rounds : x.Rounds q) :
    x.lowQuarters * x.quarter ≤ q ∧ q ≤ x.highQuarters * x.quarter := by
  unfold Rounds at rounds
  split at rounds
  · exact rounds
  · exact ⟨rounds.1.le, rounds.2.le⟩

theorem Rounds.of_strictly
    (inside : x.lowQuarters * x.quarter < q ∧ q < x.highQuarters * x.quarter) : x.Rounds q := by
  unfold Rounds
  split
  · exact ⟨inside.1.le, inside.2.le⟩
  · exact inside

theorem value_eq (x : Magnitude) : x.value = (4 * x.mantissa : Int) * x.quarter := by
  unfold value quarter
  push_cast
  ring

theorem rounds_value (x : Magnitude) : x.Rounds x.value := by
  have low : x.lowQuarters < 4 * x.mantissa := by
    unfold lowQuarters
    split <;> omega
  have high : 4 * x.mantissa < x.highQuarters := by
    unfold highQuarters
    omega
  rw [value_eq]
  refine .of_strictly ⟨?_, ?_⟩
  · exact mul_lt_mul_of_pos_right (Int.cast_lt.mpr low) x.quarter_pos
  · exact mul_lt_mul_of_pos_right (Int.cast_lt.mpr high) x.quarter_pos

theorem Rounds.pos (rounds : x.Rounds q) (nonzero : x.mantissa ≠ 0) : 0 < q := by
  have low : 0 < x.lowQuarters := by
    unfold lowQuarters
    split <;> omega
  exact lt_of_lt_of_le (mul_pos (Int.cast_pos.mpr low) x.quarter_pos) rounds.within.1

theorem Normal.le_lowQuarters (normal : y.Normal) (above : -1074 < y.exponent) :
    2 ^ 54 - 1 ≤ y.lowQuarters := by
  have full := normal.full above
  unfold lowQuarters
  split
  · omega
  · rename_i wide
    have different : y.mantissa ≠ 2 ^ 52 := fun same => wide (normal.narrow.mpr ⟨same, above⟩)
    omega

/-- One value is less than the other, as normal magnitudes show it. -/
def Below (x y : Magnitude) : Prop :=
  x.exponent < y.exponent ∨ x.exponent = y.exponent ∧ x.mantissa < y.mantissa

/-- In quarters of the lesser value, the interval of the greater one begins no earlier than that of
the lesser one ends, and later if both mantissas are even. -/
theorem Below.quarters (below : x.Below y) (normal : x.Normal) (other : y.Normal) :
    ∃ k : Int, k * x.quarter ≤ y.lowQuarters * y.quarter ∧ x.highQuarters ≤ k ∧
      (x.mantissa % 2 = 0 → y.mantissa % 2 = 0 → x.highQuarters < k) := by
  have bounded := normal.bounded
  rcases below with coarser | ⟨same, less⟩
  · have least := other.le_lowQuarters (lt_of_le_of_lt normal.least coarser)
    refine ⟨2 * y.lowQuarters, ?_, ?_⟩
    · have double : 2 * x.quarter ≤ y.quarter := by
        have power : (2 : ℚ) ^ (x.exponent + 1) ≤ 2 ^ y.exponent :=
          zpow_le_zpow_right₀ one_le_two coarser
        rw [zpow_add₀ two_ne_zero, zpow_one] at power
        unfold quarter
        linarith
      have positive : (0 : ℚ) ≤ y.lowQuarters := Int.cast_nonneg (by omega)
      calc ((2 * y.lowQuarters : Int) : ℚ) * x.quarter = y.lowQuarters * (2 * x.quarter) := by
            push_cast
            ring
        _ ≤ y.lowQuarters * y.quarter := mul_le_mul_of_nonneg_left double positive
    · unfold highQuarters
      omega
  · refine ⟨y.lowQuarters, ?_, ?_⟩
    · rw [quarter, quarter, same]
    · unfold lowQuarters highQuarters
      split <;> omega

theorem Below.not_rounds (below : x.Below y) (normal : x.Normal) (other : y.Normal)
    (first : x.Rounds q) : ¬ y.Rounds q := by
  intro second
  obtain ⟨k, start, weak, strict⟩ := below.quarters normal other
  have unit := x.quarter_pos
  by_cases even : x.mantissa % 2 = 0 ∧ y.mantissa % 2 = 0
  · have less := mul_lt_mul_of_pos_right (Int.cast_lt.mpr (strict even.1 even.2)) unit
    exact absurd (first.within.2.trans_lt (less.trans_le start)) (not_lt.mpr second.within.1)
  · have reached := (mul_le_mul_of_nonneg_right (Int.cast_le.mpr weak) unit.le).trans start
    -- One of the two intervals leaves its ends out.
    rcases not_and_or.mp even with odd | odd
    · rw [Rounds, if_neg odd] at first
      exact absurd (first.2.trans_le reached) (not_lt.mpr second.within.1)
    · rw [Rounds, if_neg odd] at second
      exact absurd (reached.trans_lt second.1) (not_lt.mpr first.within.2)

/-- No rational rounds to two values. -/
theorem Rounds.unique (first : x.Rounds q) (second : y.Rounds q) (normal : x.Normal)
    (other : y.Normal) : x = y := by
  apply Classical.byContradiction
  intro different
  have ordered : x.Below y ∨ y.Below x := by
    have apart : ¬ (x.mantissa = y.mantissa ∧ x.exponent = y.exponent) :=
      fun ⟨mantissa, exponent⟩ => different (normal.ext other mantissa exponent)
    unfold Below
    omega
  rcases ordered with below | above
  · exact below.not_rounds normal other first second
  · exact above.not_rounds other normal second first

end

/-- Negative powers take turns with positive ones. -/
theorem zpow_mul_toNat {b : ℚ} (nonzero : b ≠ 0) (e : Int) :
    b ^ e * b ^ (-e).toNat = b ^ e.toNat := by
  rw [← zpow_natCast, ← zpow_natCast, ← zpow_add₀ nonzero]
  congr 1
  omega

/-- How many of the units that `readsBack` compares in make one. -/
def perOne (x : Magnitude) (g : Int) : ℚ :=
  4 * 10 ^ (-g).toNat * 2 ^ (-x.exponent).toNat

theorem perOne_pos (x : Magnitude) (g : Int) : 0 < x.perOne g := by
  unfold perOne
  positivity

theorem quarterGap_eq (x : Magnitude) (g : Int) : (x.quarterGap g : ℚ) = x.quarter * x.perOne g := by
  have power := zpow_mul_toNat (b := 2) two_ne_zero x.exponent
  simp only [quarterGap, twoTo, tenTo, Nat.pow_eq, Nat.cast_mul, Nat.cast_pow, Nat.cast_ofNat,
    quarter, perOne, ← power]
  ring

theorem gridStep_eq (x : Magnitude) (g : Int) : (x.gridStep g : ℚ) = 10 ^ g * x.perOne g := by
  have power := zpow_mul_toNat (b := 10) (by norm_num) g
  simp only [gridStep, twoTo, tenTo, Nat.pow_eq, Nat.cast_mul, Nat.cast_pow, Nat.cast_ofNat,
    perOne, ← power]
  ring

theorem readsBack_iff {x : Magnitude} {n : Nat} {g : Int} (nonzero : x.mantissa ≠ 0) :
    x.readsBack g n = true ↔ x.Rounds (n * 10 ^ g) := by
  have unit := x.perOne_pos g
  have low : (((4 * x.mantissa - if x.narrowBelow then 1 else 2) * x.quarterGap g : Nat) : ℚ) =
      x.lowQuarters * x.quarter * x.perOne g := by
    have count : x.lowQuarters = (4 * x.mantissa - if x.narrowBelow then 1 else 2 : Nat) := by
      unfold lowQuarters
      split <;> omega
    rw [count, Int.cast_natCast, Nat.cast_mul, quarterGap_eq, mul_assoc]
  have high : (((4 * x.mantissa + 2) * x.quarterGap g : Nat) : ℚ) =
      x.highQuarters * x.quarter * x.perOne g := by
    have count : x.highQuarters = (4 * x.mantissa + 2 : Nat) := rfl
    rw [count, Int.cast_natCast, Nat.cast_mul, quarterGap_eq, mul_assoc]
  have point : ((n * x.gridStep g : Nat) : ℚ) = n * 10 ^ g * x.perOne g := by
    rw [Nat.cast_mul, gridStep_eq, mul_assoc]
  have le (a b : Nat) : a ≤ b ↔ (a : ℚ) ≤ b := Nat.cast_le.symm
  have lt (a b : Nat) : a < b ↔ (a : ℚ) < b := Nat.cast_lt.symm
  by_cases even : x.mantissa % 2 = 0
  · simp only [readsBack, Rounds, if_pos even, Bool.and_eq_true, decide_eq_true_eq]
    rw [le, le, low, high, point, mul_le_mul_iff_left₀ unit, mul_le_mul_iff_left₀ unit]
  · simp only [readsBack, Rounds, if_neg even, Bool.and_eq_true, decide_eq_true_eq]
    rw [lt, lt, low, high, point, mul_lt_mul_iff_left₀ unit, mul_lt_mul_iff_left₀ unit]

theorem readsBack_of_closest? {x : Magnitude} {g : Int} {n : Nat} (found : x.closest? g = some n) :
    x.readsBack g n = true := by
  unfold closest? at found
  simp only at found
  split at found
  · cases found
    assumption
  · cases found
    assumption
  · contradiction
  · split at found
    · cases found
      assumption
    · cases found
      assumption
    · split at found <;> cases found <;> assumption

end Magnitude

namespace Decimal

/-- The number that the digits stand for. -/
def value (d : Decimal) : ℚ :=
  Nat.ofDigitChars 10 d.digits 0 * 10 ^ (d.leading + 1 - d.digits.length)

/-- The digits of a number are those without the zeros at the end, and the zeros. -/
theorem toDigits_eq (n : Nat) (g : Int) :
    ∃ k, Nat.toDigits 10 n = (ofScaled n g).digits ++ List.replicate k '0' := by
  let reversed := (Nat.toDigits 10 n).reverse
  refine ⟨(reversed.takeWhile (· == '0')).length, ?_⟩
  have ends : reversed.takeWhile (· == '0') =
      List.replicate (reversed.takeWhile (· == '0')).length '0' := by
    refine List.eq_replicate_iff.mpr ⟨rfl, fun c member => ?_⟩
    exact beq_iff_eq.mp (List.mem_takeWhile_imp (p := (· == '0')) member)
  have cut : reversed.takeWhile (· == '0') ++ reversed.dropWhile (· == '0') = reversed :=
    List.takeWhile_append_dropWhile
  have parts := congrArg List.reverse cut
  rw [List.reverse_append, ends, List.reverse_replicate, List.reverse_reverse] at parts
  exact parts.symm

theorem value_ofScaled (n : Nat) (g : Int) : (ofScaled n g).value = n * 10 ^ g := by
  obtain ⟨k, digits⟩ := toDigits_eq n g
  have number : n = 10 ^ k * Nat.ofDigitChars 10 (ofScaled n g).digits 0 := by
    rw [← Nat.ofDigitChars_replicate_zero, ← Nat.ofDigitChars_append, ← digits,
      Nat.ofDigitChars_ten_toDigits]
  have leading : (ofScaled n g).leading + 1 - (ofScaled n g).digits.length = k + g := by
    have length := congrArg List.length digits
    rw [List.length_append, List.length_replicate] at length
    change g + (Nat.toDigits 10 n).length - 1 + 1 - _ = _
    omega
  calc (ofScaled n g).value
      = Nat.ofDigitChars 10 (ofScaled n g).digits 0 * 10 ^ ((k : Int) + g) := by rw [value, leading]
    _ = (10 ^ k * Nat.ofDigitChars 10 (ofScaled n g).digits 0 : Nat) * 10 ^ g := by
        rw [zpow_add₀ (by norm_num), zpow_natCast]
        push_cast
        ring
    _ = n * 10 ^ g := by rw [← number]

end Decimal

theorem Magnitude.exact_value (x : Magnitude) : x.exact.value = x.value := by
  unfold exact value
  rw [Decimal.value_ofScaled]
  obtain ⟨k, whole | fraction⟩ := x.exponent.eq_nat_or_neg
  · simp [whole, twoTo]
  · have least : min (-(k : Int)) 0 = -k := by omega
    have ten : (10 : ℚ) ^ k = 2 ^ k * 5 ^ k := by rw [← mul_pow]; norm_num
    simp only [fraction, least, twoTo, Int.toNat_neg_natCast, neg_neg, Int.toNat_natCast,
      Nat.pow_eq, pow_zero, mul_one, Nat.cast_mul, Nat.cast_pow, Nat.cast_ofNat, zpow_neg,
      zpow_natCast, ten]
    field_simp

theorem Magnitude.exists_shortest {x : Magnitude} (nonzero : x.mantissa ≠ 0) :
    ∃ n g, x.shortest = .ofScaled n g ∧ x.Rounds (n * 10 ^ g) := by
  unfold shortest
  simp only [Option.getD]
  split
  · rename_i d found
    obtain ⟨g, _, scaled⟩ := List.exists_of_findSome?_eq_some found
    obtain ⟨n, closest, rfl⟩ := Option.map_eq_some_iff.mp scaled
    exact ⟨n, g, rfl, (readsBack_iff nonzero).mp (readsBack_of_closest? closest)⟩
  · refine ⟨_, _, rfl, ?_⟩
    rw [← Decimal.value_ofScaled]
    exact x.exact_value ▸ x.rounds_value

/-- A whole number is the value. -/
theorem Magnitude.value_of_whole? {x : Magnitude} {n : Nat} (whole : x.whole? = some n) :
    x.value = n := by
  unfold whole? at whole
  simp only at whole
  split at whole
  · rename_i divides
    cases whole
    have unit : (0 : ℚ) < 2 ^ (-x.exponent).toNat := by positivity
    have power := zpow_mul_toNat (b := 2) two_ne_zero x.exponent
    have mantissa : x.mantissa = x.mantissa / twoTo (-x.exponent) * twoTo (-x.exponent) :=
      (Nat.div_mul_cancel (Nat.dvd_of_mod_eq_zero divides)).symm
    refine mul_right_cancel₀ unit.ne' ?_
    calc x.value * 2 ^ (-x.exponent).toNat = x.mantissa * 2 ^ x.exponent.toNat := by
          rw [value, mul_assoc, power]
      _ = (x.mantissa / twoTo (-x.exponent) * twoTo (-x.exponent) : Nat) * 2 ^ x.exponent.toNat := by
          rw [← mantissa]
      _ = (x.mantissa / twoTo (-x.exponent) * twoTo x.exponent : Nat) *
            2 ^ (-x.exponent).toNat := by
          simp only [twoTo, Nat.pow_eq, Nat.cast_mul, Nat.cast_pow, Nat.cast_ofNat]
          ring
  · contradiction

end MiniLisp.Number
