import MiniLisp.Number.Reading
import MiniLisp.Number.Spelling
import MiniLisp.Proofs.Token.Words

namespace MiniLisp.Number

/-- A character that numbers are written with. The letters are those of exponents, `inf`, `nan`. -/
def IsNumeral (c : Char) : Prop :=
  c.isDigit ∨ c ∈ ['.', '-', '+', 'e', 'i', 'n', 'f', 'a']

def Numerals (text : List Char) : Prop :=
  ∀ c ∈ text, IsNumeral c

theorem IsNumeral.solid {c : Char} (numeral : IsNumeral c) :
    Text.isBlank c = false ∧ ¬ Token.isParenthesis c ∧ c ≠ '_' := by
  obtain digit | other := numeral
  · have least : 48 ≤ c.toNat ∧ c.toNat ≤ 57 := by
      simpa [Char.isDigit, UInt32.le_iff_toNat_le] using digit
    have different (d : Char) (outside : d.toNat < 48) : c ≠ d := by
      rintro rfl
      omega
    have underscore : c ≠ '_' := by
      rintro rfl
      exact absurd least.2 (by decide)
    refine ⟨?_, ?_, underscore⟩
    · simp [Text.isBlank, Text.isWhiteSpace]
      omega
    · exact not_or.mpr ⟨different '(' (by decide), different ')' (by decide)⟩
  · have letters : ['.', '-', '+', 'e', 'i', 'n', 'f', 'a'].all fun d =>
        !Text.isBlank d && d ≠ '(' && d ≠ ')' && d ≠ '_' := by
      decide
    simpa [Token.isParenthesis, and_assoc] using List.all_eq_true.mp letters c other

section

variable {text other : List Char}

theorem Numerals.append (first : Numerals text) (second : Numerals other) :
    Numerals (text ++ other) :=
  List.forall_mem_append.mpr ⟨first, second⟩

theorem Numerals.cons {c : Char} (numeral : IsNumeral c) (rest : Numerals text) :
    Numerals (c :: text) :=
  List.forall_mem_cons.mpr ⟨numeral, rest⟩

theorem Numerals.of_subset (numerals : Numerals text) (subset : other ⊆ text) : Numerals other :=
  fun c member => numerals c (subset member)

end

theorem toDigits_numerals (n : Nat) : Numerals (Nat.toDigits 10 n) :=
  fun _ member => .inl (Nat.isDigit_of_mem_toDigits (by decide) (by decide) member)

theorem zeros_numerals (n : Nat) : Numerals (zeros n) := by
  intro c member
  rw [List.eq_of_mem_replicate member]
  exact .inl rfl

theorem ofScaled_numerals (n : Nat) (g : Int) : Numerals (Decimal.ofScaled n g).digits := by
  refine (toDigits_numerals n).of_subset fun c member => ?_
  have inside := (List.dropWhile_sublist _).subset (List.mem_reverse.mp member)
  exact List.mem_reverse.mp inside

theorem shortest_numerals (x : Magnitude) : Numerals x.shortest.digits := by
  unfold Magnitude.shortest
  simp only [Option.getD]
  split
  · rename_i d found
    obtain ⟨g, _, scaled⟩ := List.exists_of_findSome?_eq_some found
    obtain ⟨n, _, rfl⟩ := Option.map_eq_some_iff.mp scaled
    exact ofScaled_numerals n g
  · exact ofScaled_numerals _ _

theorem positional_numerals {d : Decimal} (digits : Numerals d.digits) :
    Numerals (Layout.positional d) := by
  have point : IsNumeral '.' := .inr (by decide)
  have zero : IsNumeral '0' := .inl rfl
  unfold Layout.positional
  simp only
  split
  · exact .cons zero (.cons point ((zeros_numerals _).append digits))
  · split
    · exact (digits.append (zeros_numerals _)).append (.cons point (.cons zero nofun))
    · refine (digits.of_subset (List.take_subset _ _)).append (.cons point ?_)
      exact digits.of_subset (List.drop_subset _ _)

theorem exponentText_numerals (l : Layout) (e : Int) : Numerals (l.exponentText e) := by
  have sign : IsNumeral (if e < 0 then '-' else '+') := by
    split <;> exact .inr (by decide)
  exact (Numerals.cons sign (zeros_numerals _)).append (toDigits_numerals _)

theorem scientific_numerals (l : Layout) {d : Decimal} (digits : Numerals d.digits) :
    Numerals (l.scientific d) := by
  have exponent : IsNumeral 'e' := .inr (by decide)
  have fraction : Numerals (if d.digits.length ≤ 1 then [] else '.' :: d.digits.drop 1) := by
    split
    · exact nofun
    · exact .cons (.inr (by decide)) (digits.of_subset (List.drop_subset _ _))
  exact ((digits.of_subset (List.take_subset _ _)).append fraction).append
    (.cons exponent (exponentText_numerals l _))

theorem signed_numerals (negative : Bool) {text : List Char} (numerals : Numerals text) :
    Numerals (signed negative text) := by
  unfold signed
  split
  · exact .cons (.inr (by decide)) numerals
  · exact numerals

theorem spellMagnitude_numerals (x : Magnitude) : Numerals (spellMagnitude x) := by
  unfold spellMagnitude Layout.write
  split
  · exact .cons (.inl rfl) (.cons (.inr (by decide)) (.cons (.inl rfl) nofun))
  · split
    · exact positional_numerals (shortest_numerals x)
    · exact scientific_numerals _ (shortest_numerals x)

theorem spell_numerals (x : Float) : Numerals (spell x).toList := by
  have nan : Numerals ['n', 'a', 'n'] :=
    .cons (.inr (by decide)) (.cons (.inr (by decide)) (.cons (.inr (by decide)) nofun))
  have inf : Numerals ['i', 'n', 'f'] :=
    .cons (.inr (by decide)) (.cons (.inr (by decide)) (.cons (.inr (by decide)) nofun))
  unfold spell
  rw [String.toList_ofList]
  split
  · exact nan
  · exact signed_numerals _ inf
  · exact signed_numerals _ (spellMagnitude_numerals _)

theorem toString_numerals (n : Int) : Numerals (toString n).toList := by
  cases n with
  | ofNat m =>
      change Numerals (Nat.repr m).toList
      unfold Nat.repr
      rw [String.toList_ofList]
      exact toDigits_numerals m
  | negSucc m =>
      change Numerals ("-" ++ Nat.repr (m + 1)).toList
      have digits : (Nat.repr (m + 1)).toList = Nat.toDigits 10 (m + 1) := String.toList_ofList
      rw [String.toList_append, digits]
      exact .cons (.inr (by decide)) (toDigits_numerals (m + 1))

theorem text_numerals (x : Float) : Numerals (text x).toList := by
  unfold text
  split
  · split
    · exact toString_numerals _
    · exact spell_numerals x
  · exact spell_numerals x

/-- The number, or `0.0` if it is `-0.0`. -/
def withoutSign (x : Float) : Float :=
  if x = -0.0 then 0.0 else x

/-- Each of the two forms of the number reads as the number. -/
structure ReadsBack (x : Float) : Prop where
  spelled : read? (spell x).toList = some x
  whole : ∀ n, integer? x = some n → read? (toString n).toList = some (withoutSign x)

theorem text_withoutSign (x : Float) : text (withoutSign x) = text x := by
  unfold withoutSign
  split
  · rename_i zero
    rw [zero]
    decide +kernel
  · rfl

theorem ReadsBack.text {x : Float} (back : ReadsBack x) :
    read? (text x).toList = some (withoutSign x) := by
  by_cases zero : x = -0.0
  · subst zero
    have written : Number.text (-0.0) = toString (0 : Int) := by decide +kernel
    have whole : integer? (-0.0) = some 0 := by decide +kernel
    rw [written]
    exact back.whole 0 whole
  · have spelled : read? (spell x).toList = some (withoutSign x) := by
      rw [withoutSign, if_neg zero, back.spelled]
    unfold Number.text
    split
    · rename_i n found
      split
      · exact back.whole n found
      · exact spelled
    · exact spelled

end MiniLisp.Number
