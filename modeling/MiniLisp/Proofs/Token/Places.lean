import MiniLisp.Proofs.Token.Layout
import MiniLisp.Proofs.Token.Placed

namespace MiniLisp

namespace Placed

open Token

/-- The text goes on with the token at its offset, and no atom goes on beyond its own ends. -/
def Stands (text : List Char) (p : Placed) : Prop :=
  ∃ before after, text = before ++ (p.token.text.toList ++ after) ∧ before.length = p.offset ∧
    ∀ name, p.token = .atom name → Text.Apart before.reverse ∧ Text.Apart after

theorem Stands.eq_append {text : List Char} {p : Placed} (stands : p.Stands text) :
    text = text.take p.offset ++
      (p.token.text.toList ++ text.drop (p.offset + p.token.text.length)) := by
  obtain ⟨before, after, split, place, _⟩ := stands
  have first : text.take p.offset = before := by rw [split, ← place, List.take_left]
  have rest : text.drop (p.offset + p.token.text.length) = after := by
    rw [split, ← place, ← String.length_toList, List.drop_length_add_append, List.drop_left]
  rw [first, rest, split]

theorem Stands.read {text : List Char} {p : Placed} (stands : p.Stands text) :
    (text.drop p.offset).take p.token.text.length = p.token.text.toList := by
  obtain ⟨before, after, split, place, _⟩ := stands
  rw [split, ← place, List.drop_left, ← String.length_toList, List.take_left]

theorem Stands.offset_le {text : List Char} {p : Placed} (stands : p.Stands text) :
    p.offset ≤ text.length := by
  obtain ⟨before, after, split, place, _⟩ := stands
  rw [split, ← place, List.length_append]
  exact Nat.le_add_right _ _

theorem apart_reverse_concat {c : Char} (stops : Text.isBlank c = true ∨ isParenthesis c)
    (before : List Char) : Text.Apart (before ++ [c]).reverse := by
  rw [List.reverse_concat]
  exact Text.apart_cons stops _

section

variable {whole done pending text : List Char} {offset : Nat}

theorem stands_of_mem_flush (edge : Text.Apart done.reverse) (ends : Text.Apart text)
    (split : whole = done ++ (pending.reverse ++ text))
    (place : offset = done.length + pending.length) :
    ∀ p ∈ flush pending offset, p.Stands whole := by
  unfold flush
  split
  · exact nofun
  · refine List.forall_mem_singleton.mpr ⟨done, text, ?_, ?_, fun _ _ => ⟨edge, ends⟩⟩
    · rw [split, Token.text, String.toList_ofList]
    · rw [place, Nat.add_sub_cancel]

theorem stands_of_mem_scanFrom (edge : Text.Apart done.reverse)
    (split : whole = done ++ (pending.reverse ++ text))
    (place : offset = done.length + pending.length) :
    ∀ p ∈ scanFrom offset pending text, p.Stands whole := by
  -- On the text that is left. What was scanned goes over into `done`, up to an unfinished atom.
  induction text generalizing done pending offset with
  | nil => exact stands_of_mem_flush edge Text.apart_nil split place
  | cons c text ih =>
      have flushed (stops : Text.isBlank c = true ∨ isParenthesis c) :
          ∀ p ∈ flush pending offset, p.Stands whole :=
        stands_of_mem_flush edge (Text.apart_cons stops text) split place
      have length : (done ++ pending.reverse).length = offset := by
        rw [List.length_append, List.length_reverse, place]
      have later (stops : Text.isBlank c = true ∨ isParenthesis c) :
          ∀ p ∈ scanFrom (offset + 1) [] text, p.Stands whole := by
        refine ih (apart_reverse_concat stops (done ++ pending.reverse)) ?_ ?_
        · simp [split]
        · simp [place, Nat.add_assoc]
      have parenthesis (token : Token) (same : token.text.toList = [c])
          (noAtom : ∀ name, token ≠ .atom name) : Placed.Stands whole ⟨token, offset⟩ := by
        refine ⟨done ++ pending.reverse, text, ?_, length, fun name atom => absurd atom (noAtom name)⟩
        simp [split, same]
      unfold scanFrom
      split
      · rename_i opening
        subst opening
        have here := parenthesis .opening rfl (by simp)
        exact List.forall_mem_append.mpr
          ⟨flushed (.inr (.inl rfl)), List.forall_mem_cons.mpr ⟨here, later (.inr (.inl rfl))⟩⟩
      · split
        · rename_i closing
          subst closing
          have here := parenthesis .closing rfl (by simp)
          exact List.forall_mem_append.mpr
            ⟨flushed (.inr (.inr rfl)), List.forall_mem_cons.mpr ⟨here, later (.inr (.inr rfl))⟩⟩
        · split
          · rename_i blank
            exact List.forall_mem_append.mpr ⟨flushed (.inl blank), later (.inl blank)⟩
          · refine ih edge ?_ ?_
            · simp [split]
            · rw [place, List.length_cons]
              omega

end

theorem stands_of_mem_scan (text : List Char) : ∀ p ∈ scan text, p.Stands text := by
  have edge : Text.Apart ([] : List Char).reverse := Text.apart_nil
  exact stands_of_mem_scanFrom edge rfl rfl

theorem allSolid_scan (text : List Char) : AllSolid ((scan text).map token) := by
  intro name member
  have tokens : tokenize (String.ofList text) = Token.split (String.ofList text).toList := rfl
  rw [String.toList_ofList, ← map_token_scan] at tokens
  exact solid_of_mem_tokenize (tokens ▸ member)

end Placed

end MiniLisp
