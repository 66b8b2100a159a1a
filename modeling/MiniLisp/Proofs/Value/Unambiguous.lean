import MiniLisp.Proofs.Number.Unambiguous
import MiniLisp.Proofs.Reading.RoundTrip

/-! # The text tells the value

The text of a value is taken apart in one way only. Atoms hold no comma and no parenthesis, so each
of them ends where the text after it begins; what kind of atom it is, its text tells. A list ends at
the parenthesis that closes it, and its elements are told apart by the commas between them.
-/

namespace MiniLisp

/-- The characters that stand around the elements of a list. -/
def IsDelimiter (c : Char) : Prop :=
  c = ',' ∨ c = '(' ∨ c = ')'

/-- A text that an atom can have. -/
structure IsWord (text : List Char) : Prop where
  nonempty : text ≠ []
  plain : ∀ c ∈ text, ¬ IsDelimiter c

theorem IsWord.exists_head {text : List Char} (word : IsWord text) :
    ∃ c rest, text = c :: rest ∧ ¬ IsDelimiter c := by
  obtain ⟨c, rest, rfl⟩ := List.exists_cons_of_ne_nil word.nonempty
  exact ⟨c, rest, rfl, word.plain c List.mem_cons_self⟩

/-- The text is at its end, or a delimiter is in front. -/
def Delimits (text : List Char) : Prop :=
  ∀ c ∈ text.head?, IsDelimiter c

theorem delimits_nil : Delimits [] := by
  rintro c ⟨⟩

/-- Values of numbers, booleans, symbols and lists, where no symbol is named as a list, a boolean
or a number is written. -/
inductive Value.Legible : Value → Prop where
  | number : Legible (.number x)
  | boolean : Legible (.boolean b)
  | symbol (word : IsWord x.name.toList) (notTrue : x.name ≠ "true") (notFalse : x.name ≠ "false")
      (notNumber : Number.read? x.name.toList = none) : Legible (.symbol x)
  | list (inside : ∀ v ∈ items, Legible v) : Legible (.list items)

theorem Number.IsNumeral.not_isDelimiter {c : Char} (numeral : IsNumeral c) : ¬ IsDelimiter c := by
  rintro (rfl | parenthesis)
  · obtain digit | other := numeral
    · contradiction
    · exact absurd other (by decide)
  · exact numeral.solid.2.1 parenthesis

theorem isWord_text (x : Float) : IsWord (Number.text x).toList where
  nonempty := by
    intro empty
    have read := Number.isSome_read?_text x
    rw [empty] at read
    contradiction
  plain c member := (Number.text_numerals x c member).not_isDelimiter

theorem isWord_booleanText (b : Bool) : IsWord (booleanText b).toList := by
  have plain : (booleanText b).toList.all fun c => c ≠ ',' && c ≠ '(' && c ≠ ')' := by
    cases b <;> decide
  refine ⟨by cases b <;> decide, fun c member => ?_⟩
  have here := List.all_eq_true.mp plain c member
  simpa [IsDelimiter, and_assoc] using here

theorem read?_booleanText (b : Bool) : Number.read? (booleanText b).toList = none := by
  have none : (Number.read? (booleanText b).toList).isNone := by
    cases b <;> decide +kernel
  exact Option.isNone_iff_eq_none.mp none

theorem text_ne_of_read?_eq_none {text : String} (none : Number.read? text.toList = none)
    (x : Float) : Number.text x ≠ text := by
  intro same
  have read := Number.isSome_read?_text x
  rw [same, none] at read
  contradiction

theorem name_ne_booleanText {name : String} (notTrue : name ≠ "true") (notFalse : name ≠ "false")
    (b : Bool) : name ≠ booleanText b := by
  cases b with
  | true => exact notTrue
  | false => exact notFalse

namespace Value

/-- A value that is no list. -/
def Single (v : Value) : Prop :=
  ∀ items, v ≠ .list items

variable {v w : Value}

theorem Legible.isWord (legible : v.Legible) (single : v.Single) : IsWord v.render.toList := by
  cases legible with
  | number => exact isWord_text _
  | boolean => exact isWord_booleanText _
  | symbol word => exact word
  | list => exact absurd rfl (single _)

/-- The text of an atom tells what kind of atom it is, and which. -/
theorem Legible.unsigned_eq (legible : v.Legible) (other : w.Legible) (single : v.Single)
    (single' : w.Single) (same : v.render = w.render) : v.unsigned = w.unsigned := by
  cases legible with
  | number =>
      cases other with
      | number => exact congrArg Value.number (Number.text_eq_iff.mp same)
      | boolean => exact absurd same (text_ne_of_read?_eq_none (read?_booleanText _) _)
      | symbol _ _ _ notNumber => exact absurd same (text_ne_of_read?_eq_none notNumber _)
      | list => exact absurd rfl (single' _)
  | @boolean b =>
      cases other with
      | number => exact absurd same.symm (text_ne_of_read?_eq_none (read?_booleanText _) _)
      | @boolean c =>
          have equal : b = c := by
            revert same
            cases b <;> cases c <;> decide
          rw [equal]
      | symbol _ notTrue notFalse =>
          exact absurd same.symm (name_ne_booleanText notTrue notFalse _)
      | list => exact absurd rfl (single' _)
  | @symbol x _ notTrue notFalse notNumber =>
      cases other with
      | number => exact absurd same.symm (text_ne_of_read?_eq_none notNumber _)
      | boolean => exact absurd same (name_ne_booleanText notTrue notFalse _)
      | @symbol y =>
          have equal : x = y := by
            cases x
            cases y
            exact congrArg Symbol.mk same
          rw [equal]
      | list => exact absurd rfl (single' _)
  | list => exact absurd rfl (single _)

end Value

theorem append_inj_of_plain {text other rest rest' : List Char}
    (plain : ∀ c ∈ text, ¬ IsDelimiter c) (plain' : ∀ c ∈ other, ¬ IsDelimiter c)
    (ends : Delimits rest) (ends' : Delimits rest') (same : text ++ rest = other ++ rest') :
    text = other ∧ rest = rest' := by
  induction text generalizing other with
  | nil =>
      cases other with
      | nil => exact ⟨rfl, same⟩
      | cons c other =>
          refine absurd (ends c ?_) (plain' c List.mem_cons_self)
          rw [show rest = c :: (other ++ rest') from same]
          rfl
  | cons c text ih =>
      cases other with
      | nil =>
          refine absurd (ends' c ?_) (plain c List.mem_cons_self)
          rw [show rest' = c :: (text ++ rest) from same.symm]
          rfl
      | cons d other =>
          obtain ⟨rfl, behind⟩ := List.cons.inj same
          obtain ⟨rfl, tail⟩ := ih (fun e member => plain e (List.mem_cons_of_mem c member))
            (fun e member => plain' e (List.mem_cons_of_mem c member)) behind
          exact ⟨rfl, tail⟩

/-- What stands behind the first element of a list, up to the end of the list. -/
def Value.renderTail : List Value → List Char
  | [] => []
  | v :: rest => ',' :: (renderItems (v :: rest)).toList

namespace Value

theorem toList_render_list (items : List Value) (rest : List Char) :
    (Value.list items).render.toList ++ rest =
      '(' :: ((renderItems items).toList ++ ')' :: rest) := by
  rw [render, String.toList_append, String.toList_append, List.append_assoc, List.append_assoc]
  rfl

theorem toList_renderItems_cons (v : Value) (items : List Value) :
    (renderItems (v :: items)).toList = v.render.toList ++ renderTail items := by
  cases items with
  | nil => exact (List.append_nil _).symm
  | cons w rest =>
      rw [renderItems, String.toList_append, String.toList_append, List.append_assoc]
      rfl

theorem delimits_renderTail (items : List Value) (rest : List Char) :
    Delimits (renderTail items ++ ')' :: rest) := by
  cases items with
  | nil =>
      rintro c ⟨⟩
      exact .inr (.inr rfl)
  | cons =>
      rintro c ⟨⟩
      exact .inl rfl

section

variable {v w : Value} (legible : v.Legible)
include legible

/-- No value begins as a list ends. -/
theorem Legible.head_ne (rest : List Char) : (v.render.toList ++ rest).head? ≠ some ')' := by
  by_cases single : v.Single
  · intro closes
    obtain ⟨c, tail, text, plain⟩ := (legible.isWord single).exists_head
    rw [text] at closes
    cases closes
    exact plain (.inr (.inr rfl))
  · obtain ⟨items, rfl⟩ := not_forall_not.mp single
    rw [toList_render_list]
    exact nofun

theorem Legible.single_append_inj (single : v.Single) (other : w.Legible) {rest rest' : List Char}
    (ends : Delimits rest) (ends' : Delimits rest')
    (same : v.render.toList ++ rest = w.render.toList ++ rest') :
    v.unsigned = w.unsigned ∧ rest = rest' := by
  have word := legible.isWord single
  by_cases single' : w.Single
  · have word' := other.isWord single'
    obtain ⟨text, behind⟩ := append_inj_of_plain word.plain word'.plain ends ends' same
    exact ⟨legible.unsigned_eq other single single' (String.toList_inj.mp text), behind⟩
  · obtain ⟨items, rfl⟩ := not_forall_not.mp single'
    obtain ⟨c, tail, text, plain⟩ := word.exists_head
    rw [text, toList_render_list] at same
    cases (List.cons.inj same).1
    exact absurd (.inr (.inl rfl)) plain

end

mutual

/-- Two texts that begin with a value begin with the same value and go on alike. -/
theorem render_append_inj : (v : Value) → {w : Value} → {rest rest' : List Char} → v.Legible →
    w.Legible → Delimits rest → Delimits rest' →
    v.render.toList ++ rest = w.render.toList ++ rest' → v.unsigned = w.unsigned ∧ rest = rest'
  | .list items, w, rest, rest', legible, other, ends, ends', same => by
      by_cases single : w.Single
      · obtain ⟨first, behind⟩ :=
          other.single_append_inj single legible ends' ends same.symm
        exact ⟨first.symm, behind.symm⟩
      · obtain ⟨others, rfl⟩ := not_forall_not.mp single
        cases legible with
        | list inside =>
            cases other with
            | list inside' =>
                rw [toList_render_list, toList_render_list] at same
                obtain ⟨all, behind⟩ :=
                  renderItems_append_inj items inside inside' (List.cons.inj same).2
                exact ⟨congrArg Value.list all, behind⟩
  | .number x, _, _, _, legible, other, ends, ends', same =>
      legible.single_append_inj nofun other ends ends' same
  | .boolean b, _, _, _, legible, other, ends, ends', same =>
      legible.single_append_inj nofun other ends ends' same
  | .symbol x, _, _, _, legible, other, ends, ends', same =>
      legible.single_append_inj nofun other ends ends' same

theorem renderItems_append_inj : (items : List Value) → {others : List Value} →
    {rest rest' : List Char} → (∀ v ∈ items, v.Legible) → (∀ v ∈ others, v.Legible) →
    (renderItems items).toList ++ ')' :: rest = (renderItems others).toList ++ ')' :: rest' →
    unsignedAll items = unsignedAll others ∧ rest = rest'
  | [], others, rest, rest', _, legible, same => by
      cases others with
      | nil => exact ⟨rfl, (List.cons.inj same).2⟩
      | cons w others =>
          rw [toList_renderItems_cons, List.append_assoc] at same
          refine absurd (congrArg List.head? same).symm ?_
          exact (legible w List.mem_cons_self).head_ne _
  | v :: items, others, rest, rest', legible, legible', same => by
      rw [toList_renderItems_cons, List.append_assoc] at same
      cases others with
      | nil =>
          refine absurd (congrArg List.head? same) ?_
          exact (legible v List.mem_cons_self).head_ne _
      | cons w others =>
          obtain ⟨here, later⟩ := List.forall_mem_cons.mp legible
          obtain ⟨here', later'⟩ := List.forall_mem_cons.mp legible'
          rw [toList_renderItems_cons, List.append_assoc] at same
          obtain ⟨first, tails⟩ := render_append_inj v here here' (delimits_renderTail items rest)
            (delimits_renderTail others rest') same
          match items, others with
          | [], [] => exact ⟨congrArg ([·]) first, (List.cons.inj tails).2⟩
          | [], _ :: _ => exact absurd (List.cons.inj tails).1 (by decide)
          | _ :: _, [] => exact absurd (List.cons.inj tails).1 (by decide)
          | u :: items, u' :: others =>
              obtain ⟨all, after⟩ := renderItems_append_inj (u :: items) later later'
                (List.cons.inj tails).2
              exact ⟨congrArg₂ List.cons first all, after⟩

end

end Value

/-- Values have the same text only if they are the same but for the signs of zeros. In particular
no list has the text of one that differs from it in how its elements are nested. -/
theorem render_unambiguous {v w : Value} (legible : v.Legible) (other : w.Legible) :
    v.render = w.render ↔ v.unsigned = w.unsigned := by
  constructor
  · intro same
    have text : v.render.toList ++ [] = w.render.toList ++ [] := by rw [same]
    exact (Value.render_append_inj v legible other delimits_nil delimits_nil text).1
  · intro same
    rw [← v.render_unsigned, same, w.render_unsigned]

/-- Lists that differ in the sign of a zero, and lists that differ in their nesting. -/
theorem render_unambiguous_nested :
    let v : Value := .list [.number (-0.0), .list [.symbol ⟨"a"⟩, .boolean true]]
    let w : Value := .list [.number 0.0, .list [.symbol ⟨"a"⟩, .boolean true]]
    let u : Value := .list [.number 0.0, .symbol ⟨"a"⟩, .list [.boolean true]]
    (v.Legible ∧ w.Legible ∧ u.Legible) ∧ v.render = w.render ∧ v.render ≠ u.render := by
  intro v w u
  have name : Value.Legible (.symbol ⟨"a"⟩) :=
    .symbol ⟨by decide, by simp [IsDelimiter]⟩ (by decide) (by decide)
      (Option.isNone_iff_eq_none.mp (by decide +kernel))
  have inner : Value.Legible (.list [.symbol ⟨"a"⟩, .boolean true]) :=
    .list (by simp [name, Value.Legible.boolean])
  have first : v.Legible := .list (by simp [inner, Value.Legible.number])
  have second : w.Legible := .list (by simp [inner, Value.Legible.number])
  have single : Value.Legible (.list [.boolean true]) := .list (by simp [Value.Legible.boolean])
  have third : u.Legible := .list (by simp [name, single, Value.Legible.number])
  have zero : v.unsigned = w.unsigned := by
    have signs : Number.withoutSign (-0.0) = Number.withoutSign 0.0 := by decide +kernel
    simp only [v, w, Value.unsigned, Value.unsignedAll, signs]
  refine ⟨⟨first, second, third⟩, (render_unambiguous first second).mpr zero, ?_⟩
  intro same
  have nested := (render_unambiguous first third).mp same
  simp [v, u, Value.unsigned, Value.unsignedAll] at nested

end MiniLisp
