import Mathlib.Data.List.Forall2
import Mathlib.Data.List.TakeWhile
import MiniLisp.Proofs.Token.Cut
import MiniLisp.Settings

namespace MiniLisp

namespace Text

variable {text word : List Char}

/-- The text is the word with blanks around it, none of which belongs to the word. -/
def Pads (text word : List Char) : Prop :=
  ∃ before after, text = before ++ (word ++ after) ∧ (∀ c ∈ before, isBlank c = true) ∧
    (∀ c ∈ after, isBlank c = true) ∧ Trimmed word

theorem dropWhile_exact {p : Char → Bool} {rest : List Char} (inside : ∀ c ∈ word, p c = true)
    (stops : ∀ c ∈ rest.head?, p c = false) : (word ++ rest).dropWhile p = rest := by
  rw [List.dropWhile_append_of_pos inside]
  cases rest with
  | nil => rfl
  | cons c rest => exact List.dropWhile_cons_of_neg (by simp [stops c rfl])

theorem head?_dropWhile {p : Char → Bool} : ∀ c ∈ (text.dropWhile p).head?, p c = false := by
  intro c first
  have stopped := List.head?_dropWhile_not p text
  rwa [Option.mem_def.mp first] at stopped

theorem Pads.trim_eq (pads : Pads text word) : trim isBlank text = word := by
  obtain ⟨before, after, rfl, blank, blank', first, last⟩ := pads
  have blank' : ∀ c ∈ after.reverse, isBlank c = true := by simpa using blank'
  have last : ∀ c ∈ word.reverse.head?, isBlank c = false := by rwa [List.head?_reverse]
  unfold trim
  cases word with
  | nil =>
      have all : ∀ c ∈ before ++ ([] ++ after), isBlank c = true := by
        rw [List.nil_append]
        exact List.forall_mem_append.mpr ⟨blank, by simpa using blank'⟩
      rw [List.dropWhile_eq_nil_iff.mpr all]
      rfl
  | cons c word =>
      have stops : ∀ d ∈ (c :: word ++ after).head?, isBlank d = false := first
      rw [dropWhile_exact blank stops, List.reverse_append, dropWhile_exact blank' last,
        List.reverse_reverse]

theorem pads_trim (text : List Char) : Pads text (trim isBlank text) := by
  let rest := text.dropWhile isBlank
  have split : rest = trim isBlank text ++ (rest.reverse.takeWhile isBlank).reverse := by
    rw [trim, ← List.reverse_append, List.takeWhile_append_dropWhile, List.reverse_reverse]
  refine ⟨text.takeWhile isBlank, (rest.reverse.takeWhile isBlank).reverse, ?_, ?_, ?_, ?_, ?_⟩
  · rw [← split, List.takeWhile_append_dropWhile]
  · exact fun c member => List.mem_takeWhile_imp member
  · exact fun c member => List.mem_takeWhile_imp (List.mem_reverse.mp member)
  · intro c first
    have within : c ∈ rest.head? := by
      rw [split, List.head?_append, Option.mem_def.mp first]
      rfl
    exact head?_dropWhile c within
  · intro c last
    rw [trim, List.getLast?_reverse] at last
    exact head?_dropWhile c last

theorem pads_iff : Pads text word ↔ trim isBlank text = word :=
  ⟨Pads.trim_eq, fun same => same ▸ pads_trim text⟩

/-- The words that stand between the colons of a text, with blanks around them. Between two colons
there may be blanks only, or nothing. -/
def Entries (text : List Char) (words : List (List Char)) : Prop :=
  ∃ pieces trimmed, pieces ≠ [] ∧ text = [':'].intercalate pieces ∧
    (∀ piece ∈ pieces, ':' ∉ piece) ∧ List.Forall₂ Pads pieces trimmed ∧
    words = trimmed.filter (!·.isEmpty)

theorem entries_iff {words : List (List Char)} : Entries text words ↔
    words = ((text.splitOnP (· = ':')).map (trim isBlank)).filter (!·.isEmpty) := by
  have trims (pieces trimmed : List (List Char)) :
      List.Forall₂ Pads pieces trimmed ↔ pieces.map (trim isBlank) = trimmed := by
    rw [← List.forall₂_eq_eq_eq, List.forall₂_map_left_iff]
    exact ⟨fun pads => pads.imp fun _ _ => pads_iff.mp,
      fun same => same.imp fun _ _ => pads_iff.mpr⟩
  constructor
  · rintro ⟨pieces, trimmed, nonempty, rfl, within, pads, rfl⟩
    have cut : ([':'].intercalate pieces).splitOnP (· = ':') = pieces :=
      List.splitOn_intercalate ':' within nonempty
    rw [cut, (trims pieces trimmed).mp pads]
  · rintro rfl
    have whole : [':'].intercalate (text.splitOnP (· = ':')) = text := List.intercalate_splitOn ':'
    refine ⟨_, _, List.splitOnP_ne_nil _ _, whole.symm, ?_, (trims _ _).mpr rfl, rfl⟩
    intro piece member colon
    exact absurd (mem_of_mem_splitOnP member colon).2 (by decide)

end Text

namespace Variables

variable {v : Variables} {roots : List PreludeRoot}

/-- What the search path asks for, in order. -/
inductive Asks (v : Variables) : List PreludeRoot → Prop where
  | unset (unset : v.preludePath = none) : Asks v [.bundled]
  | empty (empty : v.preludePath = some "") : Asks v [.bundled]
  | entries (set : v.preludePath = some text) (nonempty : text ≠ "")
      (entries : Text.Entries text.toList words) :
      Asks v (words.map fun word => .path (.ofString (String.ofList word)))

theorem asks_iff : v.Asks roots ↔ roots = v.preludeRoots := by
  constructor
  · intro asks
    cases asks with
    | unset unset | empty unset => simp only [preludeRoots, unset]
    | @entries text words set nonempty entries =>
        rw [preludeRoots, set]
        split
        · contradiction
        · rename_i same
          exact absurd (Option.some.inj same) nonempty
        · rename_i same
          cases same
          rw [Text.entries_iff.mp entries]
  · rintro rfl
    unfold preludeRoots
    split
    · exact .unset ‹_›
    · exact .empty ‹_›
    · rename_i text nonempty set
      exact .entries set nonempty (Text.entries_iff.mpr rfl)

end Variables

end MiniLisp
