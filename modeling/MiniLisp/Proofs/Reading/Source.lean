import MiniLisp.Proofs.Reading.Grammar
import MiniLisp.Proofs.Token.Words

namespace MiniLisp

/-- The name can stand in source text, where it reads as this symbol and nothing else. -/
structure Symbol.Spellable (x : Symbol) : Prop extends Token.Solid x.name where
  notTrue : x.name ≠ "true"
  notFalse : x.name ≠ "false"
  notNumber : ∀ n, Value.ofAtom x.name ≠ .number n

/-- The value is built as the reader builds values. -/
inductive Value.Readable : Value → Prop where
  | number : Readable (.number n)
  | boolean : Readable (.boolean b)
  | symbol (spellable : x.Spellable) : Readable (.symbol x)
  | list (items : ∀ v ∈ vs, Readable v) : Readable (.list vs)

theorem Value.ofAtom_eq_symbol {text : String} (notTrue : text ≠ "true") (notFalse : text ≠ "false")
    (notNumber : (Number.read? text.toList).isNone) : ofAtom text = .symbol ⟨text⟩ := by
  rw [Option.isNone_iff_eq_none] at notNumber
  unfold ofAtom
  rw [if_neg notTrue, if_neg notFalse, notNumber]
  split <;> rfl

theorem Symbol.Spellable.ofAtom_name {x : Symbol} (spellable : x.Spellable) :
    Value.ofAtom x.name = .symbol x := by
  have notNumber := spellable.notNumber
  unfold Value.ofAtom at notNumber ⊢
  rw [if_neg spellable.notTrue, if_neg spellable.notFalse] at *
  split
  · rfl
  · rename_i plain
    cases read : Number.read? x.name.toList with
    | none => rfl
    | some n =>
        have number := notNumber n
        rw [if_neg plain, read] at number
        exact absurd rfl number

theorem Builtin.ofAtom_name (b : Builtin) : Value.ofAtom b.name = .symbol b.symbol := by
  cases b <;> exact Value.ofAtom_eq_symbol (by decide) (by decide) (by decide +kernel)

theorem Builtin.spellable (b : Builtin) : b.symbol.Spellable where
  nonempty := by cases b <;> decide
  unblank := by
    have solid : b.symbol.name.toList.all (fun c => !Text.isBlank c) := by
      cases b <;> decide +kernel
    simpa using solid
  plain := by cases b <;> simp [symbol, name, Token.isParenthesis]
  notTrue := by cases b <;> decide
  notFalse := by cases b <;> decide
  notNumber n := by
    change Value.ofAtom b.name ≠ .number n
    rw [b.ofAtom_name]
    exact Value.noConfusion

theorem Token.Solid.readable {text : String} (solid : Token.Solid text) :
    (Value.ofAtom text).Readable := by
  by_cases isTrue : text = "true"
  · rw [Value.ofAtom, if_pos isTrue]
    exact .boolean
  by_cases isFalse : text = "false"
  · rw [Value.ofAtom, if_neg isTrue, if_pos isFalse]
    exact .boolean
  cases atom : Value.ofAtom text with
  | number n => exact .number
  | boolean b => exact .boolean
  | symbol x =>
      have name : x = ⟨text⟩ := by
        unfold Value.ofAtom at atom
        grind
      subst name
      refine .symbol { solid with notTrue := isTrue, notFalse := isFalse, notNumber := ?_ }
      intro n number
      rw [atom] at number
      contradiction
  | list | builtin | closure | foreign =>
      unfold Value.ofAtom at atom
      grind

mutual

theorem Derives.readable : Derives tokens v → (∀ text, .atom text ∈ tokens → Token.Solid text) →
    v.Readable
  | .atom, solid => (solid _ List.mem_cons_self).readable
  | .list inside, solid => by
      refine .list (inside.readable fun text member => solid text ?_)
      simp [member]

theorem DerivesAll.readable : DerivesAll tokens vs →
    (∀ text, .atom text ∈ tokens → Token.Solid text) → ∀ v ∈ vs, v.Readable
  | .nil, _ => List.forall_mem_nil _
  | .cons first rest, solid => by
      refine List.forall_mem_cons.mpr ⟨?_, ?_⟩
      · exact first.readable fun text member => solid text (List.mem_append_left _ member)
      · exact rest.readable fun text member => solid text (List.mem_append_right _ member)

end

theorem readable_of_read {source : String} {expr : Value} {rest : List Token}
    (found : Value.read (Token.tokenize source) = .ok (expr, rest)) : expr.Readable := by
  obtain ⟨used, split, derived⟩ := read_eq_ok_iff.mp found
  refine derived.readable fun text member => ?_
  have member : .atom text ∈ Token.tokenize source := by
    rw [split]
    exact List.mem_append_left rest member
  exact Token.solid_of_mem_tokenize member

theorem Stream.readable_of_mem_readAll (s : Stream)
    (solid : ∀ text, .atom text ∈ s.tokens → Token.Solid text) :
    ∀ v ∈ s.readAll.1, v.Readable := by
  fun_induction readAll s with
  | case1 | case2 => simp
  | case3 s _ v t found values failure last all ih =>
      obtain ⟨same, _, derived⟩ := next_eq_ok_iff.mp found
      rw [same] at ih
      rw [all] at ih
      refine List.forall_mem_cons.mpr ⟨?_, ih solid⟩
      refine derived.readable fun text member => solid text ?_
      rw [List.extract_eq_take_drop] at member
      exact List.mem_of_mem_drop (List.mem_of_mem_take member)

end MiniLisp
