import MiniLisp.Number.Reading
import MiniLisp.Number.Spelling
import MiniLisp.Proofs.Number.Rounding

/-! # The decimal that a text denotes

Reading a number finds a decimal first and then the double nearest to it. `Denotes` is the first
half: it says which rational a text without a sign stands for, and no text stands for two. Digits
denote the same rational in each of the layouts that a number is written in.
-/

namespace MiniLisp.Number

open MiniLisp.Text

/-- The digits behind a point, if one is in front, and the text after them. -/
def readFraction : List Char → List Nat × List Char
  | '.' :: rest => readDigits rest
  | rest => ([], rest)

/-- The decimal `n · 10 ^ e` that is all of the text. -/
def decimal? (text : List Char) : Option (Nat × Int) :=
  let (whole, rest) := readDigits text
  let (fraction, rest) := readFraction rest
  if whole.isEmpty && fraction.isEmpty then none
  else (readExponent? rest).map fun e => (valueOfDigits (whole ++ fraction), e - fraction.length)

theorem readUnsigned?_eq (text : List Char) :
    readUnsigned? text = (decimal? text).map fun d => nearest d.1 d.2 := by
  have same (whole fraction : List Nat) (rest : List Char) :
      (if whole.isEmpty && fraction.isEmpty then none
      else (readExponent? rest).map fun e =>
        nearest (valueOfDigits (whole ++ fraction)) (e - fraction.length)) =
      (if whole.isEmpty && fraction.isEmpty then none
      else (readExponent? rest).map fun e =>
        ((valueOfDigits (whole ++ fraction), e - fraction.length) : Nat × Int)).map
          fun d => nearest d.1 d.2 := by
    split
    · rfl
    · rw [Option.map_map]
      rfl
  unfold readUnsigned? decimal?
  cases readDigits text with
  | mk whole rest =>
      dsimp only
      split
      · exact same ..
      · rename_i noPoint
        rw [readFraction]
        · exact same ..
        · exact noPoint

def Denotes (text : List Char) (q : ℚ) : Prop :=
  ∃ n e, decimal? text = some (n, e) ∧ q = n * 10 ^ e

theorem Denotes.unique {text : List Char} {q r : ℚ} (first : Denotes text q)
    (second : Denotes text r) : q = r := by
  obtain ⟨n, e, read, rfl⟩ := first
  obtain ⟨m, f, again, rfl⟩ := second
  cases read.symm.trans again
  rfl

def Digits (text : List Char) : Prop :=
  ∀ c ∈ text, c.isDigit

/-- No digit is in front. -/
def Stops (text : List Char) : Prop :=
  ∀ c ∈ text.head?, digitValue? c = none

theorem digitValue?_of_isDigit {c : Char} (digit : c.isDigit) :
    digitValue? c = some (c.toNat - '0'.toNat) := by
  have range : 48 ≤ c.toNat ∧ c.toNat ≤ 57 := by
    simpa [Char.isDigit, UInt32.le_iff_toNat_le] using digit
  have first : (decide (0x30 ≤ c.toNat) && decide (c.toNat < 0x30 + 10)) = true := by
    simp only [Bool.and_eq_true, decide_eq_true_eq]
    omega
  unfold digitValue? digitZeros
  rw [List.find?_cons_of_pos (p := fun start => start ≤ c.toNat && c.toNat < start + 10) first]
  rfl

section

variable {text rest : List Char}

theorem readDigits_of_stops (stops : Stops rest) : readDigits rest = ([], rest) := by
  cases rest with
  | nil => rfl
  | cons c rest => rw [readDigits, stops c rfl]

theorem readDigits_append (digits : Digits text) (stops : Stops rest) :
    readDigits (text ++ rest) = (text.map fun c => c.toNat - '0'.toNat, rest) := by
  induction text with
  | nil => exact readDigits_of_stops stops
  | cons c text ih =>
      obtain ⟨digit, others⟩ := List.forall_mem_cons.mp digits
      rw [List.cons_append, readDigits, digitValue?_of_isDigit digit, ih others]
      rfl

theorem valueOfDigits_map (text : List Char) :
    valueOfDigits (text.map fun c => c.toNat - '0'.toNat) = Nat.ofDigitChars 10 text 0 := by
  rw [valueOfDigits, List.foldl_map, Nat.ofDigitChars_eq_foldl]

theorem readFraction_of_noPoint (noPoint : rest.head? ≠ some '.') :
    readFraction rest = ([], rest) := by
  unfold readFraction
  split
  · exact absurd rfl noPoint
  · rfl

theorem denotes_digits {exponent : List Char} {e : Int} (digits : Digits text)
    (nonempty : text ≠ []) (stops : Stops exponent) (noPoint : exponent.head? ≠ some '.')
    (read : readExponent? exponent = some e) :
    Denotes (text ++ exponent) (Nat.ofDigitChars 10 text 0 * 10 ^ e) := by
  refine ⟨_, _, ?_, rfl⟩
  unfold decimal?
  simp [readDigits_append digits stops, readFraction_of_noPoint noPoint, nonempty, read,
    ← valueOfDigits_map]

theorem denotes_point {fraction exponent : List Char} {e : Int} (whole : Digits text)
    (digits : Digits fraction) (nonempty : text ≠ []) (stops : Stops exponent)
    (read : readExponent? exponent = some e) :
    Denotes (text ++ '.' :: (fraction ++ exponent))
      (Nat.ofDigitChars 10 (text ++ fraction) 0 * 10 ^ (e - fraction.length)) := by
  have point : Stops ('.' :: (fraction ++ exponent)) := by
    rintro c ⟨⟩
    decide
  refine ⟨_, _, ?_, rfl⟩
  unfold decimal?
  simp [readDigits_append whole point, readFraction, readDigits_append digits stops, nonempty, read,
    ← valueOfDigits_map]

end

theorem Digits.append {text other : List Char} (first : Digits text) (second : Digits other) :
    Digits (text ++ other) :=
  List.forall_mem_append.mpr ⟨first, second⟩

theorem Digits.of_subset {text other : List Char} (digits : Digits text) (subset : other ⊆ text) :
    Digits other :=
  fun c member => digits c (subset member)

theorem digits_toDigits (n : Nat) : Digits (Nat.toDigits 10 n) :=
  fun _ => Nat.isDigit_of_mem_toDigits (by decide) (by decide)

theorem digits_zeros (n : Nat) : Digits (zeros n) := by
  intro c member
  rw [List.eq_of_mem_replicate member]
  rfl

theorem stops_nil : Stops [] :=
  nofun

theorem stops_exponent (text : List Char) : Stops ('e' :: text) := by
  rintro c ⟨⟩
  decide

theorem ofDigitChars_zeros (n : Nat) (text : List Char) :
    Nat.ofDigitChars 10 (zeros n ++ text) 0 = Nat.ofDigitChars 10 text 0 := by
  rw [Nat.ofDigitChars_append, zeros, Nat.ofDigitChars_replicate_zero, Nat.mul_zero]

theorem readExponent?_exponentText (l : Layout) (e : Int) :
    readExponent? ('e' :: l.exponentText e) = some e := by
  let padding := l.exponentWidth - (Nat.toDigits 10 e.natAbs).length
  have digits : Digits (zeros padding ++ Nat.toDigits 10 e.natAbs) :=
    (digits_zeros _).append (digits_toDigits _)
  have read := readDigits_append digits stops_nil
  rw [List.append_nil] at read
  have value := valueOfDigits_map (zeros padding ++ Nat.toDigits 10 e.natAbs)
  rw [ofDigitChars_zeros, Nat.ofDigitChars_ten_toDigits] at value
  have sign : readSign (l.exponentText e) =
      (decide (e < 0), zeros padding ++ Nat.toDigits 10 e.natAbs) := by
    unfold Layout.exponentText
    by_cases negative : e < 0
    · rw [if_pos negative, decide_eq_true negative]
      rfl
    · rw [if_neg negative, decide_eq_false negative]
      rfl
  have signed : applySign (decide (e < 0)) e.natAbs = e := by
    unfold applySign
    by_cases negative : e < 0
    · rw [decide_eq_true negative, if_pos rfl]
      omega
    · rw [decide_eq_false negative, if_neg Bool.false_ne_true]
      omega
  rw [readExponent?, if_pos (.inl rfl), sign]
  dsimp only
  rw [read]
  cases written : zeros padding ++ Nat.toDigits 10 e.natAbs with
  | nil => exact absurd (List.append_eq_nil_iff.mp written).2 Nat.toDigits_ne_nil
  | cons c rest =>
      rw [written] at value
      change some (applySign _ (valueOfDigits _)) = _
      rw [value, signed]

section

variable {d : Decimal} (digits : Digits d.digits) (nonempty : d.digits ≠ [])
include digits nonempty

theorem denotes_positional : Denotes (Layout.positional d) d.value := by
  unfold Layout.positional Decimal.value
  simp only
  split
  · rename_i small
    let gap := (-d.leading - 1).toNat
    have number : Nat.ofDigitChars 10 (['0'] ++ (zeros gap ++ d.digits)) 0 =
        Nat.ofDigitChars 10 d.digits 0 :=
      (ofDigitChars_zeros 1 _).trans (ofDigitChars_zeros gap _)
    have place : 0 - ((zeros gap ++ d.digits).length : Int) = d.leading + 1 - d.digits.length := by
      rw [List.length_append, zeros, List.length_replicate]
      omega
    have denotes := denotes_point (digits_zeros 1) ((digits_zeros gap).append digits)
      (List.cons_ne_nil _ _) stops_nil rfl
    rw [List.append_nil] at denotes
    rwa [← number, ← place]
  · rename_i large
    split
    · rename_i short
      let gap := d.leading.toNat + 1 - d.digits.length
      have number : Nat.ofDigitChars 10 (d.digits ++ zeros gap ++ ['0']) 0 =
          10 * (10 ^ gap * Nat.ofDigitChars 10 d.digits 0) := by
        rw [Nat.ofDigitChars_append, Nat.ofDigitChars_append, zeros,
          Nat.ofDigitChars_replicate_zero]
        exact Nat.ofDigitChars_replicate_zero (n := 1)
      have place : d.leading + 1 - d.digits.length = gap := by
        omega
      have denotes := denotes_point (digits.append (digits_zeros gap)) (digits_zeros 1)
        (List.append_ne_nil_of_left_ne_nil nonempty (zeros gap)) stops_nil rfl
      have value : (Nat.ofDigitChars 10 (d.digits ++ zeros gap ++ ['0']) 0 : ℚ) *
          10 ^ (0 - ((zeros 1).length : Int)) =
            Nat.ofDigitChars 10 d.digits 0 * 10 ^ (gap : Int) := by
        rw [number]
        simp [zeros]
        ring
      rw [place, ← value]
      exact denotes
    · rename_i long
      let places := d.leading.toNat + 1
      have front : d.digits.take places ≠ [] := by
        simpa [places] using nonempty
      have place : 0 - ((d.digits.drop places).length : Int) = d.leading + 1 - d.digits.length := by
        rw [List.length_drop]
        omega
      have denotes := denotes_point (digits.of_subset (List.take_subset places _))
        (digits.of_subset (List.drop_subset places _)) front stops_nil rfl
      rw [List.append_nil, List.take_append_drop, place] at denotes
      exact denotes

theorem denotes_scientific (l : Layout) : Denotes (l.scientific d) d.value := by
  have read := readExponent?_exponentText l d.leading
  have stops := stops_exponent (l.exponentText d.leading)
  unfold Layout.scientific Decimal.value
  split
  · rename_i single
    have one : d.digits.length = 1 := by
      have some := List.length_pos_iff.mpr nonempty
      omega
    have denotes := denotes_digits digits nonempty stops (by simp) read
    rw [List.take_of_length_le single, List.append_nil, one]
    simpa using denotes
  · rename_i several
    have front : d.digits.take 1 ≠ [] := by
      simpa using nonempty
    have place : d.leading - ((d.digits.drop 1).length : Int) =
        d.leading + 1 - d.digits.length := by
      rw [List.length_drop]
      omega
    have denotes := denotes_point (digits.of_subset (List.take_subset 1 _))
      (digits.of_subset (List.drop_subset 1 _)) front stops read
    rw [List.take_append_drop, place] at denotes
    rwa [List.append_assoc, List.cons_append]

theorem denotes_write (l : Layout) : Denotes (l.write d) d.value := by
  unfold Layout.write
  split
  · exact denotes_positional digits nonempty
  · exact denotes_scientific digits nonempty l

end

theorem denotes_toDigits (n : Nat) : Denotes (Nat.toDigits 10 n) n := by
  have denotes := denotes_digits (digits_toDigits n) Nat.toDigits_ne_nil stops_nil nofun rfl
  rwa [List.append_nil, Nat.ofDigitChars_ten_toDigits, zpow_zero, mul_one] at denotes

end MiniLisp.Number
