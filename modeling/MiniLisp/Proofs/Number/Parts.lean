import Mathlib
import MiniLisp.Number.Magnitude

namespace MiniLisp.Number

/-- Only where the exponent is the least one may the mantissa be less than full. -/
structure Magnitude.Normal (x : Magnitude) : Prop where
  bounded : x.mantissa < 2 ^ 53
  least : -1074 ≤ x.exponent
  full : -1074 < x.exponent → 2 ^ 52 ≤ x.mantissa
  narrow : x.narrowBelow = true ↔ x.mantissa = 2 ^ 52 ∧ -1074 < x.exponent

theorem Magnitude.Normal.ext {x y : Magnitude} (normal : x.Normal) (other : y.Normal)
    (mantissa : x.mantissa = y.mantissa) (exponent : x.exponent = y.exponent) : x = y := by
  have narrow : x.narrowBelow = y.narrowBelow := by
    rw [Bool.eq_iff_iff, normal.narrow, other.narrow, mantissa, exponent]
  cases x
  cases y
  simp_all

namespace Parts

theorem twoTo_eq : twoTo 63 = 2 ^ 63 ∧ twoTo 52 = 2 ^ 52 ∧ twoTo 11 = 2 ^ 11 :=
  ⟨rfl, rfl, rfl⟩

theorem normal_of_ofBits {bits : Nat} {negative : Bool} {x : Magnitude}
    (parts : ofBits bits = .finite negative x) : x.Normal := by
  obtain ⟨_, fraction, field⟩ := twoTo_eq
  simp only [ofBits, fraction, field] at parts
  have inside : bits % 2 ^ 52 < 2 ^ 52 := Nat.mod_lt _ (by decide)
  split at parts
  · split at parts <;> contradiction
  · split at parts
    · cases parts
      exact ⟨by dsimp only; omega, by simp, by simp, by simp⟩
    · cases parts
      refine ⟨by dsimp only; omega, by dsimp only; omega, fun _ => by simp, ?_⟩
      simp only [Bool.and_eq_true, beq_iff_eq, decide_eq_true_eq]
      omega

/-- The bits that have these parts; of what is not a number, the parts do not tell them. -/
def bits : Parts → Nat
  | .nan => 0
  | .infinite negative => negative.toNat * 2 ^ 63 + 2047 * 2 ^ 52
  | .finite negative x =>
    negative.toNat * 2 ^ 63 +
      if x.mantissa < 2 ^ 52 then x.mantissa
      else (x.exponent + 1075).toNat * 2 ^ 52 + (x.mantissa - 2 ^ 52)

theorem bits_ofBits {n : Nat} (bound : n < 2 ^ 64) (number : ofBits n ≠ .nan) :
    (ofBits n).bits = n := by
  obtain ⟨sign, fraction, field⟩ := twoTo_eq
  have negative : (n / 2 ^ 63 % 2 == 1).toNat = n / 2 ^ 63 % 2 := by
    rcases Nat.mod_two_eq_zero_or_one (n / 2 ^ 63) with zero | one
    · rw [zero]; rfl
    · rw [one]; rfl
  have below : n % 2 ^ 52 < 2 ^ 52 := Nat.mod_lt _ (by decide)
  simp only [ofBits, sign, fraction, field] at number ⊢
  split
  · rename_i largest
    simp only [if_pos largest] at number
    split
    · simp only [bits, negative]
      omega
    · rename_i other
      exact absurd (if_neg other) number
  · split
    · simp only [bits, negative, if_pos below]
      omega
    · have full : ¬ 2 ^ 52 + n % 2 ^ 52 < 2 ^ 52 := by omega
      simp only [bits, negative, if_neg full]
      omega

open Float.Model UnpackedFloat in
/-- Of the bits that are not a number, doubles use one pattern. -/
theorem eq_packedNaN_of_nan {x : Float} (parts : Parts.of x = .nan) :
    x.toBits.toBitVec = packedNaN Format.binary64 := by
  obtain ⟨_, fraction, field⟩ := twoTo_eq
  simp only [Parts.of, ofBits, fraction, field] at parts
  split at parts
  · rename_i largest
    split at parts
    · contradiction
    · rename_i other
      refine x.toModel.valid.eq_packedNaN ?_ ?_
      · rw [unpackExponent_def, ← BitVec.toNat_inj, BitVec.extractLsb'_toNat,
          Nat.shiftRight_eq_div_pow]
        exact largest
      · intro none
        rw [unpackMantissa_def, ← BitVec.toNat_inj, BitVec.extractLsb'_toNat, Nat.shiftRight_zero]
          at none
        exact other none
  · split at parts <;> contradiction

theorem of_injective : Function.Injective Parts.of := by
  intro x y same
  rw [← Float.toBits_inj]
  by_cases number : Parts.of x = .nan
  · have other : Parts.of y = .nan := same ▸ number
    rw [← UInt64.toBitVec_inj, eq_packedNaN_of_nan number, eq_packedNaN_of_nan other]
  · have back (z : Float) (number : Parts.of z ≠ .nan) : (Parts.of z).bits = z.toBits.toNat :=
      bits_ofBits z.toBits.toNat_lt number
    rw [← UInt64.toNat_inj, ← back x number, ← back y (same ▸ number), same]

end Parts

end MiniLisp.Number
