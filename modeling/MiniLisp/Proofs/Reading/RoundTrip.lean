import MiniLisp.Proofs.Number.Text
import MiniLisp.Proofs.Reading.Source
import MiniLisp.Proofs.Token.Layout
import MiniLisp.Value.Printing

/-! # Reading what was written

A value is written as its lists are bracketed and its atoms are rendered, with blanks as one likes
between the tokens. Reading finds the value again, but for the sign of zero, which is not written.
-/

namespace MiniLisp

namespace Value

mutual

/-- The tokens that the value is written with. -/
def tokens : Value → List Token
  | .list items => .opening :: tokensAll items ++ [.closing]
  | v => [.atom v.render]

def tokensAll : List Value → List Token
  | [] => []
  | v :: rest => v.tokens ++ tokensAll rest

end

mutual

/-- The value with `0.0` for every `-0.0` in it. -/
def unsigned : Value → Value
  | .number x => .number (Number.withoutSign x)
  | .list items => .list (unsignedAll items)
  | v => v

def unsignedAll : List Value → List Value
  | [] => []
  | v :: rest => v.unsigned :: unsignedAll rest

end

mutual

def numbers : Value → List Float
  | .number x => [x]
  | .list items => numbersAll items
  | _ => []

def numbersAll : List Value → List Float
  | [] => []
  | v :: rest => v.numbers ++ numbersAll rest

end

mutual

theorem render_unsigned : (v : Value) → v.unsigned.render = v.render
  | .number x => Number.text_withoutSign x
  | .list items => congrArg (fun text => "(" ++ text ++ ")") (renderItems_unsignedAll items)
  | .boolean _ | .symbol _ | .builtin _ | .closure .. | .foreign _ => rfl

theorem renderItems_unsignedAll : (items : List Value) →
    renderItems (unsignedAll items) = renderItems items
  | [] => rfl
  | [v] => render_unsigned v
  | v :: w :: rest =>
    congrArg₂ (fun first others => first ++ "," ++ others) (render_unsigned v)
      (renderItems_unsignedAll (w :: rest))

end

end Value

namespace Number.ReadsBack

variable {x : Float} (back : ReadsBack x)
include back

theorem solid : Token.Solid (Number.text x) where
  nonempty := by
    intro empty
    have read := back.text
    rw [empty] at read
    contradiction
  unblank c member := (text_numerals x c member).solid.1
  plain c member := (text_numerals x c member).solid.2.1

theorem ofAtom : Value.ofAtom (Number.text x) = .number (withoutSign x) := by
  have read := back.text
  have different (word : String) (noNumber : (read? word.toList).isNone) :
      Number.text x ≠ word := by
    intro same
    rw [same, Option.isNone_iff_eq_none.mp noNumber] at read
    contradiction
  have underscore : ¬ (Number.text x).toList.contains '_' := by
    intro found
    exact (text_numerals x '_' (by simpa using found)).solid.2.2 rfl
  rw [Value.ofAtom, if_neg (different "true" (by decide +kernel)),
    if_neg (different "false" (by decide +kernel)), if_neg underscore, read]

end Number.ReadsBack

theorem booleanText_solid (b : Bool) : Token.Solid (booleanText b) := by
  have word : .atom (booleanText b) ∈ Token.tokenize (booleanText b) := by
    cases b <;> decide +kernel
  exact Token.solid_of_mem_tokenize word

theorem ofAtom_booleanText (b : Bool) : Value.ofAtom (booleanText b) = .boolean b := by
  cases b <;> rfl

/-- Written with these tokens, the value is what the grammar derives. -/
structure WrittenWith (tokens : List Token) (v : Value) : Prop where
  derived : Derives tokens v
  solid : Token.AllSolid tokens

theorem WrittenWith.atom {text : String} {v : Value} (solid : Token.Solid text)
    (read : Value.ofAtom text = v) : WrittenWith [.atom text] v where
  derived := read ▸ .atom
  solid other member := by
    cases List.mem_singleton.mp member
    exact solid

mutual

theorem Value.Readable.written : (v : Value) → v.Readable →
    (∀ x ∈ v.numbers, Number.ReadsBack x) → WrittenWith v.tokens v.unsigned
  | .number x, _, back => by
      have back := back x List.mem_cons_self
      exact .atom back.solid back.ofAtom
  | .boolean b, _, _ => .atom (booleanText_solid b) (ofAtom_booleanText b)
  | .symbol x, .symbol spellable, _ => .atom spellable.toSolid spellable.ofAtom_name
  | .list items, .list readable, back => by
      obtain ⟨inside, solid⟩ := Value.Readable.writtenAll items readable back
      refine ⟨.list inside, fun text member => solid text ?_⟩
      simpa [Value.tokens] using member

theorem Value.Readable.writtenAll : (items : List Value) → (∀ v ∈ items, v.Readable) →
    (∀ x ∈ Value.numbersAll items, Number.ReadsBack x) →
    DerivesAll (Value.tokensAll items) (Value.unsignedAll items) ∧
      Token.AllSolid (Value.tokensAll items)
  | [], _, _ => ⟨.nil, nofun⟩
  | v :: rest, readable, back => by
      obtain ⟨here, later⟩ := List.forall_mem_cons.mp readable
      obtain ⟨inside, outside⟩ := List.forall_mem_append.mp back
      obtain ⟨first, solid⟩ := Value.Readable.written v here inside
      obtain ⟨others, solid'⟩ := Value.Readable.writtenAll rest later outside
      exact ⟨.cons first others, fun text member =>
        (List.mem_append.mp member).elim (solid text) (solid' text)⟩

end

theorem Symbol.spellable_iff {x : Symbol} :
    x.Spellable ↔ Token.Solid x.name ∧ x.name ≠ "true" ∧ x.name ≠ "false" ∧
      ('_' ∈ x.name.toList ∨ Number.read? x.name.toList = none) := by
  constructor
  · intro spellable
    refine ⟨spellable.toSolid, spellable.notTrue, spellable.notFalse, ?_⟩
    have atom := spellable.ofAtom_name
    unfold Value.ofAtom at atom
    rw [if_neg spellable.notTrue, if_neg spellable.notFalse] at atom
    split at atom
    · rename_i underscore
      exact .inl (by simpa using underscore)
    · refine .inr ?_
      split at atom
      · contradiction
      · assumption
  · rintro ⟨solid, notTrue, notFalse, noNumber⟩
    refine { solid with notTrue, notFalse, notNumber := fun n => ?_ }
    unfold Value.ofAtom
    rw [if_neg notTrue, if_neg notFalse]
    split
    · exact Value.noConfusion
    · rename_i plain
      rw [noNumber.resolve_left (by simpa using plain)]
      exact Value.noConfusion

/-- However a value of numbers, booleans, spellable symbols and lists is written, the text reads as
this value with `0.0` for `-0.0`, which is rendered the same, and no token is left. No other values
are ever read. -/
theorem reading_undoes_writing :
    (∀ (v : Value) (source : String), v.Readable → (∀ x ∈ v.numbers, Number.ReadsBack x) →
      Token.Layout v.tokens source.toList →
      Value.read (Token.tokenize source) = .ok (v.unsigned, []) ∧
        v.unsigned.render = v.render) ∧
    (∀ v : Value, v.Readable → (∀ x ∈ v.numbers, Number.ReadsBack x) →
      Token.Layout v.tokens (Token.spaced v.tokens).toList) ∧
    (∀ source v rest, Value.read (Token.tokenize source) = .ok (v, rest) → v.Readable) ∧
    ∀ x : Symbol, x.Spellable ↔ Token.Solid x.name ∧ x.name ≠ "true" ∧ x.name ≠ "false" ∧
      ('_' ∈ x.name.toList ∨ Number.read? x.name.toList = none) := by
  refine ⟨?_, ?_, fun _ _ _ => readable_of_read, fun _ => Symbol.spellable_iff⟩
  · intro v source readable back layout
    have written := Value.Readable.written v readable back
    have read := read_eq_ok_iff.mpr ⟨v.tokens, (List.append_nil _).symm, written.derived⟩
    rw [layout.tokenize_eq]
    exact ⟨read, v.render_unsigned⟩
  · intro v readable back
    exact Token.layout_spaced (Value.Readable.written v readable back).solid

/-- A list inside a list, written with no more blanks than are needed and with some more. -/
theorem reading_undoes_writing_nested :
    let v : Value := .list [.symbol ⟨"a"⟩, .number (-0.0), .list [.number 1.5]]
    let source := "(a 0(1.5\t) )\n"
    (v.Readable ∧ (∀ x ∈ v.numbers, Number.ReadsBack x) ∧ Token.Layout v.tokens source.toList) ∧
    Value.read (Token.tokenize source) =
      .ok (.list [.symbol ⟨"a"⟩, .number 0.0, .list [.number 1.5]], []) ∧
    v.render = "(a,0,(1.5))" := by
  intro v source
  have zero : Number.ReadsBack (-0.0) := by
    refine ⟨by decide +kernel, fun n found => ?_⟩
    have whole : Number.integer? (-0.0) = some 0 := by decide +kernel
    cases found.symm.trans whole
    decide +kernel
  have fraction : Number.ReadsBack 1.5 := by
    refine ⟨by decide +kernel, fun n found => ?_⟩
    have noInteger : Number.integer? 1.5 = none := by decide +kernel
    cases found.symm.trans noInteger
  have back : ∀ x ∈ v.numbers, Number.ReadsBack x :=
    List.forall_mem_cons.mpr ⟨zero, List.forall_mem_cons.mpr ⟨fraction, nofun⟩⟩
  have readable : v.Readable := by
    have one : Value.Readable (.list [.number 1.5]) := .list (List.forall_mem_singleton.mpr .number)
    have name : Symbol.Spellable ⟨"a"⟩ := by
      refine Symbol.spellable_iff.mpr ⟨?_, by decide, by decide, .inr (by decide +kernel)⟩
      have token : .atom "a" ∈ Token.tokenize "a" := by decide +kernel
      exact Token.solid_of_mem_tokenize token
    refine .list (List.forall_mem_cons.mpr ⟨.symbol name, List.forall_mem_cons.mpr ⟨.number, ?_⟩⟩)
    exact List.forall_mem_singleton.mpr one
  have tokens : v.tokens = [.opening, .atom "a", .atom "0", .opening, .atom "1.5", .closing,
      .closing] := by
    decide +kernel
  have layout : Token.Layout v.tokens source.toList := by
    have solid : Token.AllSolid v.tokens := (Value.Readable.written v readable back).solid
    have chars : source.toList =
        [] ++ '(' :: ([] ++ ("a".toList ++ ([' '] ++ ("0".toList ++ ([] ++ '(' ::
          ([] ++ ("1.5".toList ++ (['\t'] ++ ')' :: ([' '] ++ ')' :: ['\n']))))))))) := by
      decide +kernel
    have blank {c : Char} (here : Text.isBlank c = true) : ∀ d ∈ [c], Text.isBlank d = true :=
      List.forall_mem_singleton.mpr here
    rw [tokens] at solid ⊢
    rw [chars]
    refine .opening nofun (.atom nofun (solid _ (by simp)) ?_ ?_)
    · exact Text.apart_cons (.inl rfl) _
    refine .atom (blank rfl) (solid _ (by simp)) (Text.apart_cons (.inr (.inl rfl)) _) ?_
    refine .opening nofun (.atom nofun (solid _ (by simp)) ?_ ?_)
    · exact Text.apart_cons (.inl rfl) _
    exact .closing (blank rfl) (.closing (blank rfl) (.nil (blank rfl)))
  have unsigned : v.unsigned = .list [.symbol ⟨"a"⟩, .number 0.0, .list [.number 1.5]] := by
    have first : Number.withoutSign (-0.0) = 0.0 := by decide +kernel
    have second : Number.withoutSign 1.5 = 1.5 := by decide +kernel
    simp only [v, Value.unsigned, Value.unsignedAll, first, second]
  have ⟨read, _⟩ := reading_undoes_writing.1 v source readable back layout
  rw [unsigned] at read
  exact ⟨⟨readable, back, layout⟩, read, by decide +kernel⟩

end MiniLisp
