import MiniLisp.Proofs.Number.Rounding

namespace MiniLisp.Number

open Float.Model UnpackedFloat

namespace Magnitude

variable {x y : Magnitude}

theorem Below.value_lt (below : x.Below y) (normal : x.Normal) (other : y.Normal) :
    x.value < y.value := by
  obtain ⟨k, start, enough, _⟩ := below.quarters normal other
  have reached : x.value ≤ y.value :=
    calc x.value ≤ x.highQuarters * x.quarter := x.rounds_value.within.2
      _ ≤ k * x.quarter := mul_le_mul_of_nonneg_right (Int.cast_le.mpr enough) x.quarter_pos.le
      _ ≤ y.lowQuarters * y.quarter := start
      _ ≤ y.value := y.rounds_value.within.1
  refine lt_of_le_of_ne reached fun same => ?_
  exact below.not_rounds normal other x.rounds_value (same ▸ y.rounds_value)

theorem Normal.cmp_value (normal : x.Normal) (other : y.Normal) :
    cmp x.value y.value =
      (compare x.exponent y.exponent).then (compare x.mantissa y.mantissa) := by
  apply Ordering.Compares.cmp_eq
  have below : x.Below y → x.value < y.value := fun below => below.value_lt normal other
  have above : y.Below x → y.value < x.value := fun above => above.value_lt other normal
  rcases exponents : compare x.exponent y.exponent with _ | _ | _
  · exact below (.inl (compare_lt_iff_lt.mp exponents))
  · have same := compare_eq_iff_eq.mp exponents
    rcases mantissas : compare x.mantissa y.mantissa with _ | _ | _
    · exact below (.inr ⟨same, compare_lt_iff_lt.mp mantissas⟩)
    · exact congrArg value (normal.ext other (compare_eq_iff_eq.mp mantissas) same)
    · exact above (.inr ⟨same.symm, compare_gt_iff_gt.mp mantissas⟩)
  · exact above (.inl (compare_gt_iff_gt.mp exponents))

theorem value_pos (mantissa : m = x.mantissa) (nonzero : 0 < m) : 0 < x.value := by
  subst mantissa
  unfold value
  positivity

theorem neg_value_lt_zero (mantissa : m = x.mantissa) (nonzero : 0 < m) : -x.value < 0 :=
  neg_lt_zero.mpr (value_pos mantissa nonzero)

end Magnitude

/-- The values, with the infinities below and above all of them. -/
abbrev Extent : Type := WithBot (WithTop ℚ)

/-- Where the parts stand among the values, if they are a number's. -/
def Parts.extent? : Parts → Option Extent
  | .nan => none
  | .infinite true => some ⊥
  | .infinite false => some ((⊤ : WithTop ℚ) : Extent)
  | .finite true x => some ((-x.value : ℚ) : WithTop ℚ)
  | .finite false x => some ((x.value : ℚ) : WithTop ℚ)

def extent? (x : Float) : Option Extent :=
  (Parts.of x).extent?

/-- The unpacked double is finite and has this value. -/
inductive Exact : UnpackedFloat → ℚ → Prop where
  | zero : Exact (.zero sign) 0
  | negative {x : Magnitude} (normal : x.Normal) (mantissa : m = x.mantissa)
      (exponent : e = x.exponent) : Exact (.finite .negative m e nonzero) (-x.value)
  | positive {x : Magnitude} (normal : x.Normal) (mantissa : m = x.mantissa)
      (exponent : e = x.exponent) : Exact (.finite .positive m e nonzero) x.value

theorem Exact.compare_eq {f g : UnpackedFloat} {q r : ℚ} (first : Exact f q) (second : Exact g r) :
    f.compare g = some (cmp q r) := by
  have less : q < r → some Ordering.lt = some (cmp q r) :=
    fun less => congrArg some ((cmp_eq_lt_iff q r).mpr less).symm
  have greater : r < q → some Ordering.gt = some (cmp q r) :=
    fun greater => congrArg some ((cmp_eq_gt_iff q r).mpr greater).symm
  cases first with
  | zero =>
      cases second with
      | zero => exact congrArg some (cmp_self_eq_eq 0).symm
      | @negative _ _ nonzero y _ mantissa =>
          exact greater (Magnitude.neg_value_lt_zero mantissa nonzero)
      | @positive _ _ nonzero y _ mantissa => exact less (Magnitude.value_pos mantissa nonzero)
  | @negative _ _ nonzero x normal mantissa exponent =>
      have below := Magnitude.neg_value_lt_zero mantissa nonzero
      cases second with
      | zero => exact less below
      | @negative _ _ _ y other mantissa' exponent' =>
          have turned : cmp (-x.value) (-y.value) = cmp y.value x.value :=
            strictMono_id.neg.cmp_map_eq x.value y.value
          rw [turned, ← cmp_swap, normal.cmp_value other, ← mantissa, ← mantissa', ← exponent,
            ← exponent']
          rfl
      | @positive _ _ nonzero' y _ mantissa' =>
          exact less (below.trans (Magnitude.value_pos mantissa' nonzero'))
  | @positive _ _ nonzero x normal mantissa exponent =>
      have above := Magnitude.value_pos mantissa nonzero
      cases second with
      | zero => exact greater above
      | @negative _ _ nonzero' y _ mantissa' =>
          exact greater ((Magnitude.neg_value_lt_zero mantissa' nonzero').trans above)
      | positive other mantissa' exponent' =>
          rw [normal.cmp_value other, ← mantissa, ← mantissa', ← exponent, ← exponent']
          rfl

/-- The unpacked double stands here among the values, if it is a number. -/
inductive Stands : UnpackedFloat → Option Extent → Prop where
  | nowhere : Stands .notANumber none
  | lowest : Stands (.infinity .negative) (some ⊥)
  | highest : Stands (.infinity .positive) (some ((⊤ : WithTop ℚ) : Extent))
  | exact (exact : Exact f q) : Stands f (some ((q : WithTop ℚ) : Extent))

theorem Stands.compare_eq {f g : UnpackedFloat} {a b : Option Extent}
    (first : Stands f a) (second : Stands g b) :
    f.compare g = a.bind fun a => b.map fun b => cmp a b := by
  cases first with
  | nowhere => rfl
  | lowest =>
      cases second with
      | nowhere | lowest | highest => rfl
      | exact exact => cases exact <;> rfl
  | highest =>
      cases second with
      | nowhere | lowest | highest => rfl
      | exact exact => cases exact <;> rfl
  | exact exact =>
      cases second with
      | nowhere | lowest | highest => cases exact <;> rfl
      | exact other =>
          rw [exact.compare_eq other]
          have embedding := WithBot.coe_strictMono.comp (WithTop.coe_strictMono (α := ℚ))
          exact congrArg some (embedding.cmp_map_eq _ _).symm

section

variable {negative : Bool} {x : Magnitude}

theorem stands_infinite :
    Stands (.infinity (if negative then .negative else .positive))
      (Parts.infinite negative).extent? := by
  cases negative with
  | false => exact .highest
  | true => exact .lowest

theorem stands_zero {sign : Sign} (zero : x.mantissa = 0) :
    Stands (.zero sign) (Parts.finite negative x).extent? := by
  have value : x.value = 0 := by simp [Magnitude.value, zero]
  cases negative with
  | false =>
      rw [Parts.extent?, value]
      exact .exact .zero
  | true =>
      rw [Parts.extent?, value, neg_zero]
      exact .exact .zero

theorem stands_finite {m : Nat} {e : Int} {nonzero : 0 < m} (normal : x.Normal)
    (mantissa : m = x.mantissa) (exponent : e = x.exponent) :
    Stands (.finite (if negative then .negative else .positive) m e nonzero)
      (Parts.finite negative x).extent? := by
  cases negative with
  | false => exact .exact (.positive normal mantissa exponent)
  | true => exact .exact (.negative normal mantissa exponent)

end

section

variable {x : Float}

theorem ofBitVec_unpackSign (x : Float) :
    Sign.ofBitVec (@unpackSign .binary64 x.toBits.toBitVec) =
      if x.toBits.toNat / twoTo 63 % 2 == 1 then .negative else .positive := by
  have plus : @unpackSign .binary64 x.toBits.toBitVec = 0#1 ↔
      x.toBits.toNat / twoTo 63 % 2 = 0 := by
    rw [unpackSign_def, ← BitVec.toNat_inj, BitVec.extractLsb'_toNat, Nat.shiftRight_eq_div_pow]
    rfl
  unfold Sign.ofBitVec
  rcases Nat.mod_two_eq_zero_or_one (x.toBits.toNat / twoTo 63) with zero | one
  · rw [if_pos (plus.mpr zero), zero]
    rfl
  · rw [if_neg (by simp [plus, one]), one]
    rfl

theorem unpackExponent_eq_iff {e : BitVec 11} :
    @unpackExponent .binary64 x.toBits.toBitVec = e ↔
      x.toBits.toNat / twoTo 52 % twoTo 11 = e.toNat := by
  rw [unpackExponent_def, ← BitVec.toNat_inj, BitVec.extractLsb'_toNat, Nat.shiftRight_eq_div_pow]
  rfl

theorem unpackMantissa_eq_iff {m : BitVec 52} :
    @unpackMantissa .binary64 x.toBits.toBitVec = m ↔ x.toBits.toNat % twoTo 52 = m.toNat := by
  rw [unpackMantissa_def, ← BitVec.toNat_inj, BitVec.extractLsb'_toNat, Nat.shiftRight_zero]
  rfl

theorem toNat_one_append (m : BitVec 52) : (1#1 ++ m).toNat = twoTo 52 + m.toNat := by
  rw [BitVec.toNat_append, ← Nat.shiftLeft_add_eq_or_of_lt m.isLt]
  rfl

end

/-- Doubles are unpacked to where their parts say that they stand. -/
theorem stands_extent (x : Float) : Stands x.toModel.unpack (extent? x) := by
  have normal {negative : Bool} {m : Magnitude} :
      Parts.of x = .finite negative m → m.Normal := Parts.normal_of_ofBits
  have field := unpackExponent_eq_iff.mp (Eq.refl (@unpackExponent .binary64 x.toBits.toBitVec))
  have fraction := unpackMantissa_eq_iff.mp (Eq.refl (@unpackMantissa .binary64 x.toBits.toBitVec))
  change Stands (UnpackedFloat.unpack .binary64 x.toBits.toBitVec) _
  unfold extent? Parts.of Parts.ofBits UnpackedFloat.unpack at *
  dsimp only at normal ⊢
  rw [ofBitVec_unpackSign]
  by_cases largest : x.toBits.toNat / twoTo 52 % twoTo 11 = 2047
  · rw [if_pos largest, if_pos (unpackExponent_eq_iff.mpr largest)]
    by_cases zero : x.toBits.toNat % twoTo 52 = 0
    · rw [if_pos zero, if_pos (unpackMantissa_eq_iff.mpr zero)]
      exact stands_infinite
    · rw [if_neg zero, if_neg (mt unpackMantissa_eq_iff.mp zero)]
      exact .nowhere
  · rw [if_neg largest] at normal ⊢
    rw [if_neg (mt unpackExponent_eq_iff.mp largest), ← field]
    by_cases least : x.toBits.toNat / twoTo 52 % twoTo 11 = 0
    · rw [if_pos least] at normal ⊢
      rw [if_pos (unpackExponent_eq_iff.mpr least)]
      by_cases zero : x.toBits.toNat % twoTo 52 = 0
      · rw [dif_pos (unpackMantissa_eq_iff.mpr zero)]
        exact stands_zero zero
      · rw [dif_neg (mt unpackMantissa_eq_iff.mp zero)]
        exact stands_finite (normal rfl) fraction.symm (by rw [least]; rfl)
    · rw [if_neg least] at normal ⊢
      rw [if_neg (mt unpackExponent_eq_iff.mp least)]
      refine stands_finite (normal rfl) ?_ rfl
      exact (toNat_one_append _).trans (congrArg _ fraction.symm)

/-- Both doubles are numbers, and their places are so related. -/
def Compared (r : Extent → Extent → Prop) (x y : Float) : Prop :=
  ∃ a b, extent? x = some a ∧ extent? y = some b ∧ r a b

section

variable {x y z : Float} {r : Extent → Extent → Prop}

theorem Compared.trans [IsTrans _ r] (first : Compared r x y) (second : Compared r y z) :
    Compared r x z := by
  obtain ⟨a, b, here, middle, before⟩ := first
  obtain ⟨b', c, middle', there, after⟩ := second
  cases middle.symm.trans middle'
  exact ⟨a, c, here, there, IsTrans.trans _ _ _ before after⟩

theorem compared_swap : Compared r x y ↔ Compared (fun a b => r b a) y x := by
  constructor
  · rintro ⟨a, b, here, there, related⟩
    exact ⟨b, a, there, here, related⟩
  · rintro ⟨a, b, here, there, related⟩
    exact ⟨b, a, there, here, related⟩

theorem extent?_nan : extent? Float.nan = none := by
  have parts : Parts.of Float.nan = .nan := by decide +kernel
  rw [extent?, parts]
  rfl

theorem Compared.ne_nan (compared : Compared r x y) : x ≠ Float.nan ∧ y ≠ Float.nan := by
  obtain ⟨a, b, here, there, _⟩ := compared
  constructor
  · rintro rfl
    rw [extent?_nan] at here
    contradiction
  · rintro rfl
    rw [extent?_nan] at there
    contradiction

theorem compare_eq_some_iff {o : Ordering} :
    x.toModel.unpack.compare y.toModel.unpack = some o ↔ Compared (fun a b => cmp a b = o) x y := by
  rw [(stands_extent x).compare_eq (stands_extent y)]
  simp [Compared, Option.bind_eq_some_iff]

theorem beq_iff : (x == y) = true ↔ Compared (· = ·) x y := by
  change (x.toModel.unpack.compare y.toModel.unpack == some .eq) = true ↔ _
  rw [beq_iff_eq, compare_eq_some_iff]
  simp only [cmp_eq_eq_iff]

theorem lt_iff : x < y ↔ Compared (· < ·) x y := by
  change decide (x.toModel < y.toModel) = true ↔ _
  rw [decide_eq_true_iff]
  change (x.toModel.unpack.compare y.toModel.unpack == some .lt) = true ↔ _
  rw [beq_iff_eq, compare_eq_some_iff]
  simp only [cmp_eq_lt_iff]

theorem le_iff : x ≤ y ↔ Compared (· ≤ ·) x y := by
  have least (a b : Extent) : (cmp a b).isLE = true ↔ a ≤ b := by
    rw [← not_lt, ← cmp_eq_gt_iff]
    cases cmp a b <;> decide
  change decide (x.toModel ≤ y.toModel) = true ↔ _
  rw [decide_eq_true_iff]
  change (x.toModel.unpack.compare y.toModel.unpack).any (·.isLE) = true ↔ _
  rw [(stands_extent x).compare_eq (stands_extent y)]
  simp [Compared, Option.any_eq_true, Option.bind_eq_some_iff, least]

end

end MiniLisp.Number
