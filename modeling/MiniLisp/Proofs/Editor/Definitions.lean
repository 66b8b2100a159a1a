import MiniLisp.Editor.Index
import MiniLisp.Proofs.Reading.Source
import MiniLisp.Proofs.Reading.Tree
import MiniLisp.Proofs.Table
import MiniLisp.Proofs.Token.Places

namespace MiniLisp

namespace Tree

/-- The atom that a list begins with. -/
def head? : Tree → Option String
  | .list _ (.atom text _ :: _) _ => some text
  | _ => none

/-- What a form defines: it is a list that begins with the keyword and an atom. -/
def defined? : Tree → Option DefinedName
  | .list _ (.atom keyword _ :: .atom name offset :: rest) _ =>
    if keyword = Keyword.definition.name then
      let function := rest.head?.bind head? = some Keyword.abstraction.name
      some { name, kind := if function then .function else .variable, offset }
    else none
  | _ => none

end Tree

namespace DefinedName

open MiniLisp.Tree

theorem ofForm?_items (items : List Tree) (opening closing : Nat) (rest : List Placed) :
    ofForm? (tokensAll items ++ ⟨.closing, closing⟩ :: rest) =
      (Tree.list opening items closing).defined? := by
  match items with
  | [] | [.atom ..] => rfl
  | .list .. :: _ | .atom .. :: .list .. :: _ => rfl
  | [.atom .., .atom ..] => rfl
  | .atom .. :: .atom .. :: .atom .. :: _ => rfl
  | .atom .. :: .atom .. :: .list _ [] _ :: _ => rfl
  | .atom .. :: .atom .. :: .list _ (.list .. :: _) _ :: _ => rfl
  | .atom keyword _ :: .atom .. :: .list _ (.atom head _ :: _) _ :: _ =>
      by_cases definition : keyword = Keyword.definition.name
      · by_cases abstraction : head = Keyword.abstraction.name <;>
          simp [tokensAll, tokens, ofForm?, defined?, Tree.head?, definition, abstraction]
      · simp [tokensAll, tokens, ofForm?, defined?, definition]

mutual

/-- Inside a parenthesis a tree is passed over. -/
theorem collect_tokens : (tree : Tree) → (depth : Nat) → (rest : List Placed) →
    collect (depth + 1) (tree.tokens ++ rest) = collect (depth + 1) rest
  | .atom .., _, _ => rfl
  | .list _ items _, depth, rest => by
      rw [tokens_list_append]
      exact collect_tokensAll items (depth + 1) _

theorem collect_tokensAll : (trees : List Tree) → (depth : Nat) → (rest : List Placed) →
    collect (depth + 1) (tokensAll trees ++ rest) = collect (depth + 1) rest
  | [], _, _ => rfl
  | tree :: trees, depth, rest => by
      rw [tokensAll_cons_append, collect_tokens tree, collect_tokensAll trees]

end

/-- The forms of a forest define what they define, whatever follows. -/
theorem collect_forest_append (trees : List Tree) (rest : List Placed) :
    collect 0 (tokensAll trees ++ rest) = trees.filterMap defined? ++ collect 0 rest := by
  induction trees with
  | nil => rfl
  | cons tree trees ih =>
      rw [tokensAll_cons_append]
      cases tree with
      | atom => exact ih
      | list opening items closing =>
          have inside :
              collect 1 (tokensAll items ++ ⟨.closing, closing⟩ :: (tokensAll trees ++ rest)) =
                collect 0 (tokensAll trees ++ rest) :=
            collect_tokensAll items 0 _
          have here := ofForm?_items items opening closing (tokensAll trees ++ rest)
          rw [tokens_list_append, collect, if_pos rfl, here, inside, ih, List.filterMap_cons]
          cases (Tree.list opening items closing).defined? <;> rfl

theorem collect_forest (trees : List Tree) :
    collect 0 (tokensAll trees) = trees.filterMap defined? := by
  have all := collect_forest_append trees []
  rw [List.append_nil] at all
  exact all.trans (List.append_nil _)

end DefinedName

namespace Value

theorem eq_name_of_ofAtom {text : String} {x : Symbol} (same : ofAtom text = .symbol x) :
    text = x.name := by
  unfold ofAtom at same
  grind

theorem ofAtom_eq_symbol_iff {text : String} {x : Symbol} (spellable : x.Spellable) :
    ofAtom text = .symbol x ↔ text = x.name := by
  refine ⟨eq_name_of_ofAtom, ?_⟩
  rintro rfl
  exact spellable.ofAtom_name

theorem ofAtom_ne_list (text : String) (items : List Value) : ofAtom text ≠ .list items := by
  unfold ofAtom
  grind

end Value

/-- The symbol that the reader makes of a keyword. -/
def Keyword.symbol (k : Keyword) : Symbol :=
  ⟨k.name⟩

theorem Keyword.spellable (k : Keyword) : k.symbol.Spellable where
  nonempty := by cases k <;> decide
  unblank := by
    have solid : k.symbol.name.toList.all (fun c => !Text.isBlank c) := by
      cases k <;> decide +kernel
    simpa using solid
  plain := by cases k <;> simp [symbol, name, Token.isParenthesis]
  notTrue := by cases k <;> decide
  notFalse := by cases k <;> decide
  notNumber n := by
    have atom : Value.ofAtom k.name = .symbol k.symbol := by
      cases k <;> exact Value.ofAtom_eq_symbol (by decide) (by decide) (by decide +kernel)
    exact atom.trans_ne Value.noConfusion

theorem Keyword.ofAtom_eq_symbol_iff {text : String} (k : Keyword) :
    Value.ofAtom text = .symbol k.symbol ↔ text = k.name :=
  Value.ofAtom_eq_symbol_iff k.spellable

namespace Tree

/-- A list that begins with a keyword is read as one. -/
theorem head?_eq_keyword_iff (tree : Tree) (k : Keyword) :
    tree.head? = some k.name ↔ ∃ items, tree.value = .list (.symbol k.symbol :: items) := by
  match tree with
  | .atom text _ => simp [head?, value, Value.ofAtom_ne_list]
  | .list _ [] _ | .list _ (.list .. :: _) _ => simp [head?, value, valueAll]
  | .list _ (.atom .. :: _) _ => simp [head?, value, valueAll, k.ofAtom_eq_symbol_iff]

variable {tree : Tree} {d : DefinedName}

/-- The parts of a form that defines a name. -/
theorem eq_of_defined? (found : tree.defined? = some d) :
    ∃ opening start rest closing,
      tree = .list opening (.atom Keyword.definition.name start :: .atom d.name d.offset :: rest)
        closing ∧
      (d.kind = .function ↔ rest.head?.bind head? = some Keyword.abstraction.name) := by
  unfold defined? at found
  split at found
  · split at found
    · rename_i opening keyword start name offset rest closing definition
      cases found
      subst definition
      refine ⟨opening, start, rest, closing, rfl, ?_⟩
      dsimp only
      split <;> simp_all
    · contradiction
  · contradiction

/-- The value of a form that defines a name. -/
theorem value_of_defined? (found : tree.defined? = some d) :
    ∃ rest, tree.value = .list (.symbol Keyword.definition.symbol :: .ofAtom d.name :: rest) ∧
      (d.kind = .function ↔
        ∃ items others, rest = .list (.symbol Keyword.abstraction.symbol :: items) :: others) := by
  obtain ⟨opening, start, rest, closing, rfl, kind⟩ := eq_of_defined? found
  have keyword : Value.ofAtom Keyword.definition.name = .symbol Keyword.definition.symbol :=
    Keyword.definition.ofAtom_eq_symbol_iff.mpr rfl
  refine ⟨valueAll rest, ?_, kind.trans ?_⟩
  · rw [value, valueAll, valueAll, value, value, keyword]
  · cases rest with
    | nil => simp [valueAll]
    | cons third others =>
        rw [List.head?_cons, Option.bind_some, head?_eq_keyword_iff]
        simp [valueAll]

/-- A form defines a name when it is a list that begins with the keyword and no list after it. -/
theorem isSome_defined?_iff (tree : Tree) :
    tree.defined?.isSome ↔
      ∃ second rest, tree.value = .list (.symbol Keyword.definition.symbol :: second :: rest) ∧
        ∀ items, second ≠ .list items := by
  constructor
  · intro defined
    obtain ⟨d, found⟩ := Option.isSome_iff_exists.mp defined
    obtain ⟨rest, same, _⟩ := value_of_defined? found
    exact ⟨_, rest, same, Value.ofAtom_ne_list d.name⟩
  · rintro ⟨second, rest, same, noList⟩
    match tree with
    | .atom text _ => exact absurd same (Value.ofAtom_ne_list text _)
    | .list _ [] _ | .list _ [_] _ | .list _ (.list .. :: _ :: _) _ => simp [value, valueAll] at same
    | .list _ (.atom .. :: .list .. :: _) _ =>
        simp only [value, valueAll, Value.list.injEq, List.cons.injEq] at same
        exact absurd same.2.1.symm (noList _)
    | .list _ (.atom keyword _ :: .atom .. :: _) _ =>
        simp only [value, valueAll, Value.list.injEq, List.cons.injEq] at same
        rw [defined?, if_pos (Keyword.definition.ofAtom_eq_symbol_iff.mp same.1)]
        rfl

end Tree

/-- A text that can be read to its end has one forest, and the values of its trees are the values
that are read. -/
theorem exists_forest {text : String} (finished : (Stream.ofSource text).readAll.2.1 = none) :
    ∃ trees, (∀ others, Tree.tokensAll others = Placed.scan text.toList ↔ others = trees) ∧
      trees.map Tree.value = (Stream.ofSource text).readAll.1 := by
  have derived := (Stream.ofSource text).derivesAll_of_readAll finished
  have placed : (Placed.scan text.toList).map Placed.token = (Stream.ofSource text).rest :=
    Placed.map_token_scan text.toList
  obtain ⟨trees, forest, values⟩ := derived.exists_trees placed
  refine ⟨trees, fun others => ⟨fun same => ?_, ?_⟩, ?_⟩
  · exact Tree.eq_of_tokensAll (same.trans forest.symm)
  · rintro rfl
    exact forest
  · rw [← Tree.valueAll_eq_map, values]

namespace Index

/-- The tree is the last of the forest that defines the name. -/
def LastDefinition (trees : List Tree) (tree : Tree) (d : DefinedName) : Prop :=
  ∃ before after, trees = before ++ tree :: after ∧ tree.defined? = some d ∧
    ∀ later ∈ after, ∀ e, later.defined? = some e → e.name ≠ d.name

theorem exists_lastDefinition {trees : List Tree} {name : String}
    (defined : name ∈ (trees.filterMap Tree.defined?).map DefinedName.name) :
    ∃ tree d, LastDefinition trees tree d ∧ d.name = name := by
  induction trees with
  | nil => contradiction
  | cons tree trees ih =>
      by_cases further : name ∈ (trees.filterMap Tree.defined?).map DefinedName.name
      · obtain ⟨last, d, ⟨before, after, rfl, rest⟩, same⟩ := ih further
        exact ⟨last, d, ⟨tree :: before, after, rfl, rest⟩, same⟩
      · cases found : tree.defined? with
        | none =>
            rw [List.filterMap_cons_none found] at defined
            exact absurd defined further
        | some d =>
            rw [List.filterMap_cons_some found, List.map_cons, List.mem_cons] at defined
            have here := (defined.resolve_right further).symm
            refine ⟨tree, d, ⟨[], trees, rfl, found, fun later member e same clash => ?_⟩, here⟩
            refine further (List.mem_map.mpr ⟨e, ?_, clash.trans here⟩)
            exact List.mem_filterMap.mpr ⟨later, member, same⟩

section

variable {chars : List Char} {trees : List Tree} (forest : Tree.tokensAll trees = Placed.scan chars)
include forest

theorem definitionsOf_forest :
    definitionsOf chars = .ofList ((trees.filterMap Tree.defined?).map fun d =>
      (d.name, { kind := d.kind, position := .ofOffset chars d.offset })) := by
  rw [definitionsOf, ← forest, DefinedName.collect_forest]

theorem keys_definitionsOf : (definitionsOf chars).keys =
    ((trees.filterMap Tree.defined?).map DefinedName.name).eraseDups := by
  rw [definitionsOf_forest forest, Table.keys_ofList, List.map_map]
  rfl

theorem find?_definitionsOf {tree : Tree} {d : DefinedName} (last : LastDefinition trees tree d) :
    (definitionsOf chars).find? d.name =
      some { kind := d.kind, position := .ofOffset chars d.offset } := by
  obtain ⟨before, after, rfl, found, others⟩ := last
  rw [definitionsOf_forest forest, List.filterMap_append, List.filterMap_cons_some found,
    List.map_append, List.map_cons]
  apply Table.find?_ofList_append
  rw [List.map_map]
  intro clash
  obtain ⟨e, member, same⟩ := List.mem_map.mp clash
  obtain ⟨later, inside, defined⟩ := List.mem_filterMap.mp member
  exact others later inside e defined same

/-- Every entry is that of a last definition. -/
theorem lastDefinition_of_find? {name : String} {entry : Definition}
    (found : (definitionsOf chars).find? name = some entry) :
    ∃ tree d, LastDefinition trees tree d ∧ d.name = name ∧ d.kind = entry.kind := by
  have defined := Option.isSome_of_eq_some found
  rw [definitionsOf_forest forest, Table.isSome_find?_ofList, List.map_map] at defined
  obtain ⟨tree, d, last, rfl⟩ := exists_lastDefinition defined
  cases (find?_definitionsOf forest last).symm.trans found
  exact ⟨tree, d, last, rfl, rfl⟩

end

end Index

/-- The index of a text without an issue holds the names that the forms of the text define, in the
order in which they come first, each as the last form that defines it does: with the place of its
name, where the text reads exactly that, and as a function if what it is defined as is a list that
begins with the keyword for one. -/
theorem index_agrees_with_forms (text : String) (sound : Issue.ofText? text = none) :
    let chars := text.toList
    let definitions := (Index.ofText text).definitions
    ∃ trees : List Tree,
      (∀ others, Tree.tokensAll others = Placed.scan chars ↔ others = trees) ∧
      trees.map Tree.value = (Stream.ofSource text).readAll.1 ∧
      (∀ tree ∈ trees, tree.defined?.isSome ↔
        ∃ second rest, tree.value = .list (.symbol Keyword.definition.symbol :: second :: rest) ∧
          ∀ items, second ≠ .list items) ∧
      definitions.keys = ((trees.filterMap Tree.defined?).map DefinedName.name).eraseDups ∧
      ∀ name ∈ definitions.keys, ∃ tree d entry, Index.LastDefinition trees tree d ∧
        d.name = name ∧ tree.tokens[2]? = some ⟨.atom name, d.offset⟩ ∧
        definitions.find? name = some entry ∧
        entry.position = .ofOffset chars d.offset ∧
        Placed.Stands chars ⟨.atom name, d.offset⟩ ∧
        (entry.kind = .function ↔ ∃ first second items rest, tree.value =
          .list (first :: second :: .list (.symbol Keyword.abstraction.symbol :: items) :: rest)) := by
  intro chars definitions
  obtain ⟨trees, unique, values⟩ := exists_forest (Option.map_eq_none_iff.mp sound)
  have forest := (unique trees).mpr rfl
  have keys : definitions.keys = _ := Index.keys_definitionsOf forest
  refine ⟨trees, unique, values, fun tree _ => tree.isSome_defined?_iff, keys, ?_⟩
  intro name member
  rw [keys, List.mem_eraseDups] at member
  obtain ⟨tree, d, last, rfl⟩ := Index.exists_lastDefinition member
  have entry := Index.find?_definitionsOf forest last
  have ⟨before, after, split, found, _⟩ := last
  obtain ⟨opening, start, items, closing, shape, _⟩ := Tree.eq_of_defined? found
  obtain ⟨rest, value, kind⟩ := Tree.value_of_defined? found
  have second : tree.tokens[2]? = some ⟨.atom d.name, d.offset⟩ := by
    rw [shape]
    rfl
  have scanned : ⟨.atom d.name, d.offset⟩ ∈ Placed.scan chars := by
    rw [← forest, split, Tree.tokensAll_eq_flatMap]
    refine List.mem_flatMap.mpr ⟨tree, ?_, List.mem_of_getElem? second⟩
    exact List.mem_append_right before List.mem_cons_self
  refine ⟨tree, d, _, last, rfl, second, entry, rfl, ?_, kind.trans ?_⟩
  · exact Placed.stands_of_mem_scan chars _ scanned
  · simp [value]

/-- A name that is defined twice, at last as a function, and definitions that stand inside others. -/
theorem index_agrees_with_forms_redefined :
    let text := "(define f 1) (g (define h 2))\n(define f (lambda (x) (define y x)))"
    Issue.ofText? text = none ∧ (Index.ofText text).definitions.keys = ["f"] ∧
      (Index.ofText text).definitions.find? "f" = some { kind := .function, position := ⟨1, 8⟩ } ∧
      ∃ trees tree d, Tree.tokensAll trees = Placed.scan text.toList ∧
        Index.LastDefinition trees tree d ∧ d.name = "f" ∧
        ∃ first second items rest, tree.value =
          .list (first :: second :: .list (.symbol Keyword.abstraction.symbol :: items) :: rest) := by
  intro text
  have sound : Issue.ofText? text = none := by decide +kernel
  have keys : (Index.ofText text).definitions.keys = ["f"] := by decide +kernel
  have last : (Index.ofText text).definitions.find? "f" =
      some { kind := .function, position := ⟨1, 8⟩ } := by
    decide +kernel
  obtain ⟨trees, unique, _, _, _, described⟩ := index_agrees_with_forms text sound
  obtain ⟨tree, d, entry, defines, same, _, found, _, _, kind⟩ :=
    described "f" (keys ▸ List.mem_cons_self)
  cases found.symm.trans last
  exact ⟨sound, keys, last, trees, tree, d, (unique trees).mpr rfl, defines, same, kind.mp rfl⟩

end MiniLisp
