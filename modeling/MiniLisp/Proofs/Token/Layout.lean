import Mathlib.Data.List.Basic
import MiniLisp.Proofs.Token.Words

namespace MiniLisp

namespace Text

/-- The text goes on with a blank or a parenthesis, if it goes on. -/
def Apart (text : List Char) : Prop :=
  ∀ c, text.head? = some c → isBlank c = true ∨ Token.isParenthesis c

theorem apart_nil : Apart [] := by
  intro c first
  contradiction

theorem apart_cons {c : Char} (stops : isBlank c = true ∨ Token.isParenthesis c)
    (text : List Char) : Apart (c :: text) := by
  intro d first
  cases first
  exact stops

end Text

namespace Token

/-- The text writes the tokens, one after the other. -/
inductive Layout : List Token → List Char → Prop where
  | nil (blank : ∀ c ∈ gap, Text.isBlank c = true) : Layout [] gap
  | opening (blank : ∀ c ∈ gap, Text.isBlank c = true) (rest : Layout tokens after) :
      Layout (.opening :: tokens) (gap ++ '(' :: after)
  | closing (blank : ∀ c ∈ gap, Text.isBlank c = true) (rest : Layout tokens after) :
      Layout (.closing :: tokens) (gap ++ ')' :: after)
  | atom (blank : ∀ c ∈ gap, Text.isBlank c = true) (solid : Solid name)
      (apart : Text.Apart after) (rest : Layout tokens after) :
      Layout (.atom name :: tokens) (gap ++ (name.toList ++ after))

theorem split_append_blank {c : Char} (blank : Text.isBlank c = true) (before after : List Char) :
    split (before ++ c :: after) = split before ++ split after := by
  have kept : isolate c = [c] := by
    refine if_neg ?_
    rintro (rfl | rfl) <;> exact absurd blank (by decide)
  unfold split isolated
  rw [List.flatMap_append, List.flatMap_cons, kept, List.singleton_append,
    Text.words_append_blank blank, List.map_append]

theorem split_gap {gap : List Char} (blank : ∀ c ∈ gap, Text.isBlank c = true)
    (text : List Char) : split (gap ++ text) = split text := by
  induction gap with
  | nil => rfl
  | cons c gap ih =>
      obtain ⟨here, later⟩ := List.forall_mem_cons.mp blank
      exact (split_append_blank here [] (gap ++ text)).trans (ih later)

theorem split_atom {name : String} {text : List Char} (solid : Solid name)
    (apart : Text.Apart text) : split (name.toList ++ text) = .atom name :: split text := by
  have kept : name.toList.flatMap isolate = name.toList := by
    have single : ∀ c ∈ name.toList, isolate c = [c] :=
      fun c inside => if_neg (solid.plain c inside)
    rw [List.flatMap_congr single, List.flatMap_singleton']
  have nonempty : name.toList ≠ [] := by simpa using solid.nonempty
  have word := Text.words_solid nonempty solid.unblank
  unfold split isolated
  rw [List.flatMap_append, kept]
  -- What follows begins with a blank, be it its own or the one that is set before a parenthesis.
  have blank : text.flatMap isolate = [] ∨
      ∃ c rest, text.flatMap isolate = c :: rest ∧ Text.isBlank c = true := by
    cases text with
    | nil => exact .inl rfl
    | cons c text =>
        refine .inr ?_
        rw [List.flatMap_cons]
        by_cases parenthesis : isParenthesis c
        · have split : isolate c = [' ', c, ' '] := if_pos parenthesis
          exact ⟨' ', _, by rw [split]; rfl, by decide⟩
        · have single : isolate c = [c] := if_neg parenthesis
          have here := (apart c rfl).resolve_right parenthesis
          exact ⟨c, _, by rw [single]; rfl, here⟩
  obtain empty | ⟨c, rest, begun, blank⟩ := blank
  · rw [empty, List.append_nil, word, Text.words_nil, List.map_singleton, solid.ofWord_eq]
    rfl
  · rw [begun, Text.words_append_blank blank, word, Text.words_blank_cons blank, List.map_append,
      List.map_singleton, solid.ofWord_eq]
    rfl

theorem Layout.split_eq (layout : Layout tokens chars) : split chars = tokens := by
  induction layout with
  | nil blank =>
      have gap := split_gap blank []
      rw [List.append_nil] at gap
      rw [gap]
      rfl
  | opening blank _ ih => rw [split_gap blank, split_cons (.inl rfl), ih, ofWord]
  | closing blank _ ih => rw [split_gap blank, split_cons (.inr rfl), ih, ofWord]
  | atom blank solid apart _ ih => rw [split_gap blank, split_atom solid apart, ih]

/-- However tokens are written, the text splits into them. -/
theorem Layout.tokenize_eq {source : String} (layout : Layout tokens source.toList) :
    tokenize source = tokens :=
  layout.split_eq

/-- The tokens with a blank before each. -/
def spaced (tokens : List Token) : String :=
  String.ofList (tokens.flatMap fun token => ' ' :: token.text.toList)

theorem layout_spaced {tokens : List Token} (solid : AllSolid tokens) :
    Layout tokens (spaced tokens).toList := by
  have space : ∀ c ∈ [' '], Text.isBlank c = true := List.forall_mem_singleton.mpr rfl
  rw [spaced, String.toList_ofList]
  induction tokens with
  | nil => exact .nil (List.forall_mem_nil _)
  | cons token tokens ih =>
      have rest := ih fun text member => solid text (List.mem_cons_of_mem token member)
      cases token with
      | opening => exact .opening space rest
      | closing => exact .closing space rest
      | atom text =>
          refine .atom space (solid text List.mem_cons_self) ?_ rest
          cases tokens with
          | nil => exact nofun
          | cons next tokens => exact Text.apart_cons (.inl (by decide)) _

end Token

end MiniLisp
