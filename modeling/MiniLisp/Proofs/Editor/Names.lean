import MiniLisp.Proofs.Editor.Definitions
import MiniLisp.Proofs.Editor.Word
import MiniLisp.Proofs.Evaluation.Rules

namespace MiniLisp

/-- The atom denotes a boolean or a number. -/
def Token.IsLiteral (text : String) : Prop :=
  text = "true" ∨ text = "false" ∨ '_' ∉ text.toList ∧ (Number.read? text.toList).isSome

/-- A definition of the value succeeds whenever its form has a value. -/
def Value.IsDefinable (target : Value) : Prop :=
  ∀ depth form frame s v t, (evaluate depth form frame).run.run s = (.ok v, t) →
    ((evaluate (depth + 2) (.list [.symbol Keyword.definition.symbol, target, form]) frame).run.run
      s).1 = .ok target

namespace Value

theorem ofAtom_eq_symbol_iff_not_literal {text : String} :
    ofAtom text = .symbol ⟨text⟩ ↔ ¬ Token.IsLiteral text := by
  unfold ofAtom Token.IsLiteral
  grind

theorem exists_ofAtom_eq_symbol_iff {text : String} :
    (∃ x, ofAtom text = .symbol x) ↔ ¬ Token.IsLiteral text := by
  rw [← ofAtom_eq_symbol_iff_not_literal]
  constructor
  · rintro ⟨x, atom⟩
    rw [atom, eq_name_of_ofAtom atom]
  · exact fun atom => ⟨_, atom⟩

theorem isDefinable_iff {target : Value} : target.IsDefinable ↔ ∃ x, target = .symbol x := by
  have form (depth : Nat) (value : Value) (frame : FrameId) :
      evaluate (depth + 2) (.list [.symbol Keyword.definition.symbol, target, value]) frame =
        evaluateForm (depth + 1) .definition [target, value] frame :=
    evaluate_form (Keyword.ofName?_name .definition)
  constructor
  · intro definable
    by_contra noSymbol
    have succeeds := definable 1 (.boolean true) 0 {} (.boolean true) {} rfl
    rw [form, evaluateForm_target (not_exists.mp noSymbol)] at succeeds
    contradiction
  · rintro ⟨x, rfl⟩ depth value frame s v t run
    rw [form, evaluateForm, Eval.run_bind_of_ok run]
    rfl

end Value

namespace Placed

/-- How many parentheses are open behind the tokens. A closing one that matches none changes
nothing. -/
def openAfter : Nat → List Placed → Nat
  | depth, [] => depth
  | depth, ⟨.opening, _⟩ :: rest => openAfter (depth + 1) rest
  | depth, ⟨.closing, _⟩ :: rest => openAfter (depth - 1) rest
  | depth, ⟨.atom _, _⟩ :: rest => openAfter depth rest

/-- Somewhere outside of all parentheses the tokens go on with the beginning of a definition of the
name. -/
def Define (name : String) (placed : List Placed) : Prop :=
  ∃ before opening keyword offset after,
    placed = before ++ ⟨.opening, opening⟩ :: ⟨.atom Keyword.definition.name, keyword⟩ ::
      ⟨.atom name, offset⟩ :: after ∧
    openAfter 0 before = 0

end Placed

namespace DefinedName

variable {d : DefinedName} {depth : Nat} {name : String} {placed : List Placed}

theorem ofForm?_defines_iff : (∃ d, ofForm? placed = some d ∧ d.name = name) ↔
    ∃ keyword offset after, placed =
      ⟨.atom Keyword.definition.name, keyword⟩ :: ⟨.atom name, offset⟩ :: after := by
  constructor
  · rintro ⟨d, found, rfl⟩
    unfold ofForm? at found
    split at found
    · split at found
      · rename_i definition
        cases found
        exact ⟨_, _, _, by rw [definition]⟩
      · contradiction
    · contradiction
  · rintro ⟨keyword, offset, after, rfl⟩
    exact ⟨_, by unfold ofForm?; exact if_pos rfl, rfl⟩

theorem mem_collect_append {before rest : List Placed} {opening : Nat}
    (outside : Placed.openAfter depth before = 0) (found : ofForm? rest = some d) :
    d ∈ collect depth (before ++ ⟨.opening, opening⟩ :: rest) := by
  induction before generalizing depth with
  | nil =>
      have here : depth = 0 := outside
      rw [List.nil_append, collect, if_pos here, found]
      exact List.mem_cons_self
  | cons first before ih =>
      obtain ⟨token, offset⟩ := first
      cases token with
      | opening => exact List.mem_append_right _ (ih outside)
      | closing | atom => exact ih outside

/-- What is collected is what the forms define that begin outside of all parentheses. -/
theorem mem_collect_iff : d ∈ collect depth placed ↔
    ∃ before opening rest, placed = before ++ ⟨.opening, opening⟩ :: rest ∧
      Placed.openAfter depth before = 0 ∧ ofForm? rest = some d := by
  refine ⟨fun member => ?_, ?_⟩
  · fun_induction collect depth placed with
    | case1 => contradiction
    | case2 depth offset rest ih =>
        rcases List.mem_append.mp member with here | later
        · split at here
          · exact ⟨[], offset, rest, rfl, ‹depth = 0›, Option.mem_toList.mp here⟩
          · contradiction
        · obtain ⟨before, opening, after, rfl, outside, found⟩ := ih later
          exact ⟨_ :: before, opening, after, rfl, outside, found⟩
    | case3 depth offset rest ih | case4 depth text offset rest ih =>
        obtain ⟨before, opening, after, rfl, outside, found⟩ := ih member
        exact ⟨_ :: before, opening, after, rfl, outside, found⟩
  · rintro ⟨before, opening, rest, rfl, outside, found⟩
    exact mem_collect_append outside found

end DefinedName

namespace Index

theorem mem_keys_iff {text name : String} :
    name ∈ (ofText text).definitions.keys ↔ Placed.Define name (Placed.scan text.toList) := by
  have keys : (ofText text).definitions.keys =
      ((DefinedName.collect 0 (Placed.scan text.toList)).map DefinedName.name).eraseDups := by
    change (Table.ofList _).keys = _
    rw [Table.keys_ofList, List.map_map]
    rfl
  rw [keys, List.mem_eraseDups, List.mem_map]
  constructor
  · rintro ⟨d, collected, same⟩
    obtain ⟨before, opening, rest, split, outside, found⟩ :=
      DefinedName.mem_collect_iff.mp collected
    obtain ⟨keyword, offset, after, rfl⟩ := DefinedName.ofForm?_defines_iff.mp ⟨d, found, same⟩
    exact ⟨before, opening, keyword, offset, after, split, outside⟩
  · rintro ⟨before, opening, keyword, offset, after, split, outside⟩
    obtain ⟨d, found, same⟩ := DefinedName.ofForm?_defines_iff.mpr ⟨keyword, offset, after, rfl⟩
    exact ⟨d, DefinedName.mem_collect_iff.mpr ⟨before, opening, _, split, outside, found⟩, same⟩

end Index

namespace Token.IsLiteral

variable {name : String} (literal : IsLiteral name)
include literal

theorem ne_name {x : Symbol} (spelled : Value.ofAtom x.name = .symbol x) : x.name ≠ name := by
  rintro rfl
  exact Value.ofAtom_eq_symbol_iff_not_literal.mp spelled literal

theorem ne_keyword (k : Keyword) : k.name ≠ name :=
  literal.ne_name (k.ofAtom_eq_symbol_iff.mpr rfl)

theorem ne_builtin (b : Builtin) : b.name ≠ name :=
  literal.ne_name b.ofAtom_name

end Token.IsLiteral

namespace Workspace

variable {w : Workspace} {uri text name : String}
variable (held : w.documents.find? uri = some (.ofText text))
include held

theorem exists_completion_iff (literal : Token.IsLiteral name) :
    (∃ c ∈ w.completions uri, c.label = name) ↔ name ∈ (Index.ofText text).definitions.keys := by
  simp [completions, held, Table.keys, Document.ofText, Definition.completion, or_and_right,
    exists_or, literal.ne_keyword, literal.ne_builtin]

theorem exists_definition_iff :
    (∃ entries, w.definitions? uri = some entries ∧ name ∈ entries.map Prod.fst) ↔
      name ∈ (Index.ofText text).definitions.keys := by
  rw [definitions?, held]
  simp [Table.keys, Document.ofText]

theorem exists_hover_iff (literal : Token.IsLiteral name) {p : Text.Position}
    (word : Text.wordAt text.toList p = .ok (some name.toList)) :
    (∃ shown, w.hover uri p = .ok (some shown)) ↔
      name ∈ (Index.ofText text).definitions.keys := by
  have noKeyword : Keyword.ofName? name = none :=
    List.find?_eq_none.mpr fun k _ same => literal.ne_keyword k (of_decide_eq_true same)
  have noBuiltin : Builtin.ofName? name = none :=
    List.find?_eq_none.mpr fun b _ same => literal.ne_builtin b (of_decide_eq_true same)
  have answer : w.hover uri p =
      .ok (((Index.ofText text).definitions.find? name).map (·.summary name)) := by
    simp only [hover, held, Document.ofText]
    rw [word]
    simp [Except.map, Document.describe?, noKeyword, noBuiltin]
  rw [answer, Table.mem_keys_iff, Option.isSome_iff_exists]
  simp

end Workspace

/-- The names of an index are the atoms that stand behind the keyword of a definition outside of all
parentheses. All of them are symbols if and only if none of these atoms is a literal. A name that is
no symbol is refused by every definition, and still an editor is offered it as a completion, finds
it among the symbols of the document and shows it at the cursor. -/
theorem indexed_names_definable_iff (text : String) :
    let names := (Index.ofText text).definitions.keys
    let placed := Placed.scan text.toList
    ((∀ name ∈ names, ∃ x, Value.ofAtom name = .symbol x) ↔
        ∀ name, Placed.Define name placed → ¬ Token.IsLiteral name) ∧
      (∀ name ∈ names, (∃ x, Value.ofAtom name = .symbol x) ↔ (Value.ofAtom name).IsDefinable) ∧
      (∀ name, name ∈ names ↔ Placed.Define name placed) ∧
      ∀ (w : Workspace) uri name, w.documents.find? uri = some (.ofText text) →
        Token.IsLiteral name →
        ((∃ c ∈ w.completions uri, c.label = name) ↔ Placed.Define name placed) ∧
        ((∃ entries, w.definitions? uri = some entries ∧ name ∈ entries.map Prod.fst) ↔
          Placed.Define name placed) ∧
        ∀ p, Text.wordAt text.toList p = .ok (some name.toList) →
          ((∃ shown, w.hover uri p = .ok (some shown)) ↔ Placed.Define name placed) := by
  intro names placed
  have keys (name : String) : name ∈ names ↔ Placed.Define name placed := Index.mem_keys_iff
  refine ⟨?_, fun name _ => ?_, keys, ?_⟩
  · simp only [keys, Value.exists_ofAtom_eq_symbol_iff]
  · exact Value.isDefinable_iff.symm
  · intro w uri name held literal
    simp only [← keys]
    exact ⟨Workspace.exists_completion_iff held literal, Workspace.exists_definition_iff held,
      fun p word => Workspace.exists_hover_iff held literal word⟩

/-- Definitions that are not complete and stand inside of one another. The number behind the last
keyword is shown with a place, and the one inside is not. -/
theorem indexed_names_definable_iff_nested :
    let text := "(define x (define 3 1)) (define nan 2"
    let w := (({} : Workspace).write "u" text).2
    (Index.ofText text).definitions.keys = ["x", "nan"] ∧
      ¬ (Value.ofAtom "nan").IsDefinable ∧ (∃ shown, w.hover "u" ⟨0, 32⟩ = .ok (some shown)) ∧
      Text.wordAt text.toList ⟨0, 18⟩ = .ok (some "3".toList) ∧
      ¬ ∃ shown, w.hover "u" ⟨0, 18⟩ = .ok (some shown) := by
  intro text w
  obtain ⟨_, definable, keys, shown⟩ := indexed_names_definable_iff text
  have names : (Index.ofText text).definitions.keys = ["x", "nan"] := by decide +kernel
  rw [names] at definable keys
  have literal (name : String) (number : '_' ∉ name.toList ∧ (Number.read? name.toList).isSome) :
      Token.IsLiteral name := .inr (.inr number)
  have held : w.documents.find? "u" = some (.ofText text) := rfl
  have last := literal "nan" ⟨by decide, by decide +kernel⟩
  have inner := literal "3" ⟨by decide, by decide +kernel⟩
  have word : Text.wordAt text.toList ⟨0, 18⟩ = .ok (some "3".toList) := by decide +kernel
  refine ⟨names, ?_, ?_, word, ?_⟩
  · rw [← definable "nan" (by decide), Value.exists_ofAtom_eq_symbol_iff]
    exact not_not_intro last
  · have word : Text.wordAt text.toList ⟨0, 32⟩ = .ok (some "nan".toList) := by decide +kernel
    exact ((shown w "u" "nan" held last).2.2 _ word).mpr ((keys "nan").mp (by decide))
  · rw [(shown w "u" "3" held inner).2.2 _ word, ← keys "3"]
    decide

/-- A number behind the keyword of a complete definition. -/
theorem literal_indexed :
    let text := "(define 5 1)"
    (Index.ofText text).definitions.keys = ["5"] ∧ ¬ ∃ x, Value.ofAtom "5" = .symbol x := by
  refine ⟨by decide +kernel, ?_⟩
  rw [Value.exists_ofAtom_eq_symbol_iff]
  exact not_not_intro (.inr (.inr ⟨by decide, by decide +kernel⟩))

end MiniLisp
