import MiniLisp.Proofs.Reading.Stream
import MiniLisp.Token.Basic

namespace MiniLisp

inductive Tree where
  | atom (text : String) (offset : Nat)
  | list (opening : Nat) (items : List Tree) (closing : Nat)

namespace Tree

mutual

def tokens : Tree → List Placed
  | .atom text offset => [⟨.atom text, offset⟩]
  | .list opening items closing => ⟨.opening, opening⟩ :: tokensAll items ++ [⟨.closing, closing⟩]

def tokensAll : List Tree → List Placed
  | [] => []
  | tree :: rest => tree.tokens ++ tokensAll rest

end

mutual

/-- The value that is read from the tree. -/
def value : Tree → Value
  | .atom text _ => Value.ofAtom text
  | .list _ items _ => .list (valueAll items)

def valueAll : List Tree → List Value
  | [] => []
  | tree :: rest => tree.value :: valueAll rest

end

theorem tokensAll_eq_flatMap (trees : List Tree) : tokensAll trees = trees.flatMap tokens := by
  induction trees with
  | nil => rfl
  | cons tree rest ih => rw [tokensAll, List.flatMap_cons, ih]

theorem valueAll_eq_map (trees : List Tree) : valueAll trees = trees.map value := by
  induction trees with
  | nil => rfl
  | cons tree rest ih => rw [valueAll, List.map_cons, ih]

theorem tokens_list_append (opening closing : Nat) (items : List Tree) (rest : List Placed) :
    (Tree.list opening items closing).tokens ++ rest =
      ⟨.opening, opening⟩ :: (tokensAll items ++ ⟨.closing, closing⟩ :: rest) := by
  rw [tokens, List.append_assoc, List.cons_append]
  rfl

theorem tokensAll_cons_append (tree : Tree) (trees : List Tree) (rest : List Placed) :
    tokensAll (tree :: trees) ++ rest = tree.tokens ++ (tokensAll trees ++ rest) :=
  List.append_assoc ..

/-- No tree begins with a closing parenthesis. -/
theorem tokens_ne_closing (tree : Tree) (rest others : List Placed) (offset : Nat) :
    tree.tokens ++ rest ≠ ⟨.closing, offset⟩ :: others := by
  cases tree with
  | atom => exact fun same => Token.noConfusion (congrArg Placed.token (List.cons.inj same).1)
  | list => exact fun same => Token.noConfusion (congrArg Placed.token (List.cons.inj same).1)

theorem tokens_ne_nil (tree : Tree) (rest : List Placed) : tree.tokens ++ rest ≠ [] := by
  cases tree <;> exact List.cons_ne_nil _ _

/-- Where a sequence of trees may end: at a closing parenthesis or where there are no more tokens. -/
def Ended (rest : List Placed) : Prop :=
  rest = [] ∨ ∃ offset others, rest = ⟨.closing, offset⟩ :: others

theorem Ended.ne_tokens {rest : List Placed} (ended : Ended rest) (tree : Tree)
    (others : List Placed) : tree.tokens ++ others ≠ rest := by
  obtain rfl | ⟨offset, more, rfl⟩ := ended
  · exact tree.tokens_ne_nil others
  · exact tree.tokens_ne_closing others more offset

mutual

theorem tokens_inj : (tree other : Tree) → ∀ {rest rest'}, tree.tokens ++ rest = other.tokens ++ rest' →
    tree = other ∧ rest = rest'
  | .atom .., .atom .., _, _, same => by
      cases same
      exact ⟨rfl, rfl⟩
  | .atom .., .list .., _, _, same => by cases same
  | .list .., .atom .., _, _, same => by cases same
  | .list opening items closing, .list opening' items' closing', rest, rest', same => by
      rw [tokens_list_append, tokens_list_append] at same
      obtain ⟨first, later⟩ := List.cons.inj same
      cases first
      have ⟨inside, outside⟩ := tokensAll_inj items items' (.inr ⟨closing, rest, rfl⟩)
        (.inr ⟨closing', rest', rfl⟩) later
      cases inside
      cases outside
      exact ⟨rfl, rfl⟩

theorem tokensAll_inj : (trees others : List Tree) → ∀ {rest rest'}, Ended rest → Ended rest' →
    tokensAll trees ++ rest = tokensAll others ++ rest' → trees = others ∧ rest = rest'
  | [], [], _, _, _, _, same => ⟨rfl, same⟩
  | [], other :: others, _, _, ended, _, same => by
      rw [tokensAll_cons_append] at same
      exact absurd same.symm (ended.ne_tokens other _)
  | tree :: trees, [], _, _, _, ended, same => by
      rw [tokensAll_cons_append] at same
      exact absurd same (ended.ne_tokens tree _)
  | tree :: trees, other :: others, _, _, ended, ended', same => by
      rw [tokensAll_cons_append, tokensAll_cons_append] at same
      obtain ⟨rfl, later⟩ := tokens_inj tree other same
      obtain ⟨rfl, left⟩ := tokensAll_inj trees others ended ended' later
      exact ⟨rfl, left⟩

end

theorem eq_of_tokensAll {trees others : List Tree} (same : tokensAll trees = tokensAll others) :
    trees = others := by
  refine (tokensAll_inj trees others (.inl rfl) (.inl rfl) ?_).1
  rw [List.append_nil, List.append_nil, same]

end Tree

mutual

theorem Derives.exists_tree : Derives tokens v → ∀ {placed : List Placed},
    placed.map Placed.token = tokens → ∃ tree : Tree, tree.tokens = placed ∧ tree.value = v
  | .atom, placed, same => by
      obtain ⟨⟨token, offset⟩, rfl, atom⟩ := List.map_eq_singleton_iff.mp same
      cases atom
      exact ⟨.atom _ offset, rfl, rfl⟩
  | .list inside, placed, same => by
      obtain ⟨front, back, rfl, opened, closed⟩ := List.map_eq_append_iff.mp same
      obtain ⟨⟨first, opening⟩, middle, rfl, isOpening, inner⟩ := List.map_eq_cons_iff.mp opened
      obtain ⟨⟨last, closing⟩, rfl, isClosing⟩ := List.map_eq_singleton_iff.mp closed
      cases isOpening
      cases isClosing
      obtain ⟨items, rfl, rfl⟩ := inside.exists_trees inner
      exact ⟨.list opening items closing, rfl, rfl⟩

theorem DerivesAll.exists_trees : DerivesAll tokens values → ∀ {placed : List Placed},
    placed.map Placed.token = tokens →
      ∃ trees, Tree.tokensAll trees = placed ∧ Tree.valueAll trees = values
  | .nil, placed, same => by
      cases List.map_eq_nil_iff.mp same
      exact ⟨[], rfl, rfl⟩
  | .cons first rest, placed, same => by
      obtain ⟨front, back, rfl, here, later⟩ := List.map_eq_append_iff.mp same
      obtain ⟨tree, rfl, rfl⟩ := first.exists_tree here
      obtain ⟨trees, rfl, rfl⟩ := rest.exists_trees later
      exact ⟨tree :: trees, rfl, rfl⟩

end

/-- A stream that is read to its end is the values that are found, one after the other. -/
theorem Stream.derivesAll_of_readAll (s : Stream) (finished : s.readAll.2.1 = none) :
    DerivesAll s.rest s.readAll.1 := by
  obtain ⟨used, derived, split, _⟩ := s.readAll_advance
  obtain ⟨_, empty⟩ | ⟨_, failed, _⟩ := s.readAll_stops
  · rwa [split, empty, List.append_nil]
  · cases finished.symm.trans failed

end MiniLisp
