import MiniLisp.Proofs.Number.Decimal
import MiniLisp.Proofs.Number.Text

/-! # The text tells the number

Two doubles have the same text only if they are the same but for the sign of zero: a word is
written for what is not a number or infinite, and for other doubles a decimal that rounds to them
alone. So it makes no difference which of its forms a number is written in. Each text is read as
some number.
-/

namespace MiniLisp.Number

open MiniLisp.Text

theorem integer?_eq_some {x : Float} {n : Int} (whole : integer? x = some n) :
    ∃ negative m k, Parts.of x = .finite negative m ∧ m.whole? = some k ∧
      n = if negative then -(k : Int) else k := by
  unfold integer? at whole
  split at whole
  · rename_i negative m parts
    obtain ⟨k, found, same⟩ := Option.map_eq_some_iff.mp whole
    exact ⟨negative, m, k, parts, found, same.symm⟩
  · contradiction

theorem withoutSign_of_zero {x : Float} {negative : Bool} {m : Magnitude}
    (parts : Parts.of x = .finite negative m) (zero : m.mantissa = 0) : withoutSign x = 0.0 := by
  have positive : Parts.of 0.0 = .finite false ⟨0, -1074, false⟩ := by decide +kernel
  have other : Parts.of (-0.0) = .finite true ⟨0, -1074, false⟩ := by decide +kernel
  have normal := Parts.normal_of_ofBits parts
  have least : m = ⟨0, -1074, false⟩ := by
    refine normal.ext (Parts.normal_of_ofBits positive) zero ?_
    have bound := normal.least
    have full := normal.full
    change m.exponent = -1074
    omega
  subst least
  unfold withoutSign
  cases negative with
  | false =>
      rw [Parts.of_injective (parts.trans positive.symm)]
      split <;> rfl
  | true => rw [Parts.of_injective (parts.trans other.symm), if_pos rfl]

/-- A sign and the text behind it tell what a double is. -/
inductive Tells (x : Float) : Bool → List Char → Prop where
  | nan (parts : Parts.of x = .nan) : Tells x negative ['n', 'a', 'n']
  | infinite (parts : Parts.of x = .infinite negative) : Tells x negative ['i', 'n', 'f']
  /-- The sign of zero is not written. -/
  | finite {unsigned : List Char} (parts : Parts.of x = .finite sign m)
      (signed : m.mantissa ≠ 0 → sign = negative) (denotes : Denotes unsigned q)
      (rounds : m.Rounds q) : Tells x negative unsigned

theorem not_denotes_cons {c : Char} {rest : List Char} {q : ℚ} (noDigit : digitValue? c = none)
    (noPoint : c ≠ '.') : ¬ Denotes (c :: rest) q := by
  rintro ⟨n, e, read, _⟩
  have digits : readDigits (c :: rest) = ([], c :: rest) := by rw [readDigits, noDigit]
  have other : (c :: rest).head? ≠ some '.' := fun same => noPoint (Option.some.inj same)
  unfold decimal? at read
  rw [digits] at read
  simp [readFraction_of_noPoint other] at read

section

variable {x y : Float} {negative : Bool} {unsigned : List Char}

/-- Doubles of which the same is told are the same but for the sign of zero. -/
theorem Tells.unique (first : Tells x negative unsigned) (second : Tells y negative unsigned) :
    withoutSign x = withoutSign y := by
  have nan (q : ℚ) : ¬ Denotes ['n', 'a', 'n'] q := not_denotes_cons (by decide) (by decide)
  have infinite (q : ℚ) : ¬ Denotes ['i', 'n', 'f'] q := not_denotes_cons (by decide) (by decide)
  cases first with
  | nan parts =>
      cases second with
      | nan again => rw [Parts.of_injective (parts.trans again.symm)]
      | finite _ _ denotes => exact absurd denotes (nan _)
  | infinite parts =>
      cases second with
      | infinite again => rw [Parts.of_injective (parts.trans again.symm)]
      | finite _ _ denotes => exact absurd denotes (infinite _)
  | @finite sign m _ q _ parts signed denotes rounds =>
      cases second with
      | nan => exact absurd denotes (nan _)
      | infinite => exact absurd denotes (infinite _)
      | @finite sign' m' _ q' _ again signed' denotes' rounds' =>
          cases denotes.unique denotes'
          cases rounds.unique rounds' (Parts.normal_of_ofBits parts) (Parts.normal_of_ofBits again)
          by_cases zero : m.mantissa = 0
          · rw [withoutSign_of_zero parts zero, withoutSign_of_zero again zero]
          · rw [signed zero] at parts
            rw [signed' zero] at again
            rw [Parts.of_injective (parts.trans again.symm)]

end

/-- No sign is in front. -/
def Unsigned (text : List Char) : Prop :=
  ∀ c ∈ text.head?, c ≠ '-' ∧ c ≠ '+'

theorem Denotes.unsigned {text : List Char} {q : ℚ} (denotes : Denotes text q) :
    Unsigned text := by
  cases text with
  | nil => exact nofun
  | cons c rest =>
      rintro c ⟨⟩
      refine ⟨?_, ?_⟩
      · rintro rfl
        exact not_denotes_cons (by decide) (by decide) denotes
      · rintro rfl
        exact not_denotes_cons (by decide) (by decide) denotes

theorem readSign_signed {text : List Char} (plain : Unsigned text) (negative : Bool) :
    readSign (signed negative text) = (negative, text) := by
  cases negative with
  | true => rfl
  | false =>
      change readSign text = _
      unfold readSign
      split
      · exact absurd rfl (plain '-' rfl).1
      · exact absurd rfl (plain '+' rfl).2
      · rfl

/-- The text tells the number once its sign is read. -/
def TextTells (x : Float) (text : List Char) : Prop :=
  ∃ negative unsigned, readSign text = (negative, unsigned) ∧ Tells x negative unsigned

theorem TextTells.signed {x : Float} {negative : Bool} {m : Magnitude} {text : List Char} {q : ℚ}
    (parts : Parts.of x = .finite negative m) (denotes : Denotes text q) (rounds : m.Rounds q) :
    TextTells x (signed negative text) :=
  ⟨negative, text, readSign_signed denotes.unsigned negative,
    .finite parts (fun _ => rfl) denotes rounds⟩

theorem exists_spellMagnitude {m : Magnitude} (nonzero : m.mantissa ≠ 0) :
    ∃ q, Denotes (spellMagnitude m) q ∧ m.Rounds q := by
  obtain ⟨n, g, shortest, rounds⟩ := Magnitude.exists_shortest nonzero
  obtain ⟨k, written⟩ := Decimal.toDigits_eq n g
  have digits : Digits (Decimal.ofScaled n g).digits :=
    (digits_toDigits n).of_subset (written ▸ List.subset_append_left _ _)
  have nonempty : (Decimal.ofScaled n g).digits ≠ [] := by
    intro empty
    have value : (Decimal.ofScaled n g).value = 0 := by
      rw [Decimal.value, empty, Nat.ofDigitChars_nil, Nat.cast_zero, zero_mul]
    rw [Decimal.value_ofScaled] at value
    exact absurd value (rounds.pos nonzero).ne'
  refine ⟨n * 10 ^ g, ?_, rounds⟩
  rw [spellMagnitude, if_neg nonzero, shortest, ← Decimal.value_ofScaled]
  exact denotes_write digits nonempty layout

theorem spell_tells {x : Float}
    (nonzero : ∀ negative m, Parts.of x = .finite negative m → m.mantissa ≠ 0) :
    TextTells x (spell x).toList := by
  unfold spell
  rw [String.toList_ofList]
  cases parts : Parts.of x with
  | nan => exact ⟨false, _, rfl, .nan parts⟩
  | infinite negative =>
      refine ⟨negative, _, readSign_signed ?_ negative, .infinite parts⟩
      rintro c ⟨⟩
      decide
  | finite negative m =>
      obtain ⟨q, denotes, rounds⟩ := exists_spellMagnitude (nonzero negative m parts)
      exact .signed parts denotes rounds

theorem toList_toString_signed (negative : Bool) {k : Nat} (nonzero : k ≠ 0) :
    (toString (if negative then -(k : Int) else k)).toList =
      signed negative (Nat.toDigits 10 k) := by
  obtain ⟨k, rfl⟩ := Nat.exists_eq_succ_of_ne_zero nonzero
  have digits (n : Nat) : (Nat.repr n).toList = Nat.toDigits 10 n := String.toList_ofList
  cases negative with
  | false => exact digits (k + 1)
  | true =>
      change ("-" ++ Nat.repr (k + 1)).toList = _
      rw [String.toList_append, digits]
      rfl

theorem text_tells (x : Float) : TextTells x (text x).toList := by
  unfold text
  cases whole : integer? x with
  | none =>
      refine spell_tells fun negative m parts zero => ?_
      -- Zero is an integer.
      simp [integer?, parts, Magnitude.whole?, zero] at whole
  | some n =>
      obtain ⟨negative, m, k, parts, found, same⟩ := integer?_eq_some whole
      have value := Magnitude.value_of_whole? found
      have rounds : m.Rounds k := value ▸ m.rounds_value
      dsimp only
      by_cases zero : m.mantissa = 0
      · have none : k = 0 := by
          rw [Magnitude.value, zero, Nat.cast_zero, zero_mul] at value
          exact_mod_cast value.symm
        have nothing : n = 0 := by
          rw [same, none]
          cases negative <;> rfl
        rw [nothing, if_pos (by decide)]
        exact ⟨false, ['0'], rfl,
          .finite parts (absurd zero) (denotes_toDigits 0) (none ▸ rounds)⟩
      · have some : k ≠ 0 := by
          have positive := rounds.pos zero
          exact_mod_cast positive.ne'
        split
        · rw [same, toList_toString_signed negative some]
          exact .signed parts (denotes_toDigits k) rounds
        · refine spell_tells fun _ _ again => ?_
          cases parts.symm.trans again
          exact zero

/-- Which form of a number its text takes does not matter, nor how large the number is. -/
theorem text_eq_iff {x y : Float} : text x = text y ↔ withoutSign x = withoutSign y := by
  constructor
  · intro same
    obtain ⟨negative, unsigned, read, meant⟩ := text_tells x
    obtain ⟨negative', unsigned', read', meant'⟩ := text_tells y
    rw [same] at read
    cases read.symm.trans read'
    exact meant.unique meant'
  · intro same
    rw [← text_withoutSign, same, text_withoutSign]

theorem trim_of_forall {p : Char → Bool} {text : List Char} (none : ∀ c ∈ text, p c = false) :
    trim p text = text := by
  have kept (l : List Char) (none : ∀ c ∈ l, p c = false) : l.dropWhile p = l := by
    cases l with
    | nil => rfl
    | cons c rest => rw [List.dropWhile_cons_of_neg (by simp [none c List.mem_cons_self])]
  rw [trim, kept text none, kept _ fun c member => none c (List.mem_reverse.mp member),
    List.reverse_reverse]

theorem Tells.read {x : Float} {negative : Bool} {unsigned : List Char}
    (meant : Tells x negative unsigned) :
    ((readWord? unsigned).or (readUnsigned? unsigned)).isSome := by
  cases meant with
  | nan => rfl
  | infinite => rfl
  | finite _ _ denotes =>
      obtain ⟨n, e, read, _⟩ := denotes
      simp [readUnsigned?_eq, read]

theorem isSome_read?_text (x : Float) : (read? (text x).toList).isSome := by
  obtain ⟨negative, unsigned, sign, meant⟩ := text_tells x
  have solid (c : Char) (member : c ∈ (text x).toList) : isWhiteSpace c = false := by
    have blank := (text_numerals x c member).solid.1
    exact (Bool.or_eq_false_iff.mp blank).1
  unfold read?
  rw [trim_of_forall solid, sign]
  simpa using meant.read

end MiniLisp.Number
