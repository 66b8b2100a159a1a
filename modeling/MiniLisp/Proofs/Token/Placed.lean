import MiniLisp.Proofs.Token.Layout
import MiniLisp.Proofs.Token.Parentheses
import MiniLisp.Token.Basic

namespace MiniLisp

namespace Placed

open Token

variable {text before after pending : List Char} {c : Char}

theorem map_token_flush (unblank : ∀ c ∈ pending, Text.isBlank c = false)
    (plain : Text.Plain pending) (offset : Nat) :
    (flush pending offset).map token = (Text.words pending.reverse).map ofWord := by
  cases pending with
  | nil =>
      rw [List.reverse_nil, Text.words_nil]
      rfl
  | cons c pending =>
      have nonempty : (c :: pending).reverse ≠ [] := by simp
      have word := Text.words_solid nonempty fun d member => unblank d (List.mem_reverse.mp member)
      have atom := ofWord_of_plain fun d member => plain d (List.mem_reverse.mp member)
      rw [word, List.map_singleton, atom]
      rfl

theorem map_token_scanFrom (unblank : ∀ c ∈ pending, Text.isBlank c = false)
    (plain : Text.Plain pending) (offset : Nat) :
    (scanFrom offset pending text).map token =
      (Text.words (pending.reverse ++ text.flatMap isolate)).map ofWord := by
  have nothing : ∀ c ∈ ([] : List Char), Text.isBlank c = false := List.forall_mem_nil _
  have plainNothing : Text.Plain [] := List.forall_mem_nil _
  induction text generalizing offset pending with
  | nil =>
      rw [List.flatMap_nil, List.append_nil]
      exact map_token_flush unblank plain offset
  | cons c text ih =>
      have flushed := map_token_flush unblank plain offset
      have later := ih nothing plainNothing (offset + 1)
      rw [List.reverse_nil, List.nil_append] at later
      rw [List.flatMap_cons]
      unfold scanFrom
      by_cases parenthesis : isParenthesis c
      · have apart : isolate c = [' ', c, ' '] := if_pos parenthesis
        have word := words_isolated parenthesis pending.reverse (text.flatMap isolate)
        rw [apart]
        refine Eq.trans ?_ (congrArg (List.map ofWord) word).symm
        rw [List.map_append, List.map_cons, ← flushed, ← later]
        obtain rfl | rfl := parenthesis <;> simp <;> rfl
      · have single : isolate c = [c] := if_neg parenthesis
        obtain ⟨noOpening, noClosing⟩ := not_or.mp parenthesis
        rw [if_neg noOpening, if_neg noClosing, single]
        split
        · rename_i blank
          rw [List.singleton_append, Text.words_append_blank blank, List.map_append,
            List.map_append, flushed, later]
        · rename_i solid
          have pushed := ih (List.forall_mem_cons.mpr ⟨by simpa using solid, unblank⟩)
            (List.forall_mem_cons.mpr ⟨parenthesis, plain⟩) (offset + 1)
          rw [pushed, List.reverse_cons, List.append_assoc]

theorem map_token_scan (text : List Char) : (scan text).map token = split text :=
  map_token_scanFrom (List.forall_mem_nil _) (List.forall_mem_nil _) 0

/-- An atom that cannot go on ends. -/
theorem scanFrom_apart (apart : Text.Apart text) (offset : Nat) (pending : List Char) :
    scanFrom offset pending text = flush pending offset ++ scanFrom offset [] text := by
  cases text with
  | nil => simp [scanFrom, flush]
  | cons c text =>
      have nothing : flush [] offset = [] := rfl
      simp only [scanFrom, nothing, List.nil_append]
      rcases apart c rfl with blank | rfl | rfl
      · simp only [blank, if_true]
        split
        · rfl
        · split <;> rfl
      · rfl
      · rfl

/-- A scan can be cut where no token goes on. -/
theorem scanFrom_append_apart (apart : Text.Apart after) (offset : Nat) :
    scanFrom offset pending (before ++ after) =
      scanFrom offset pending before ++ scanFrom (offset + before.length) [] after := by
  induction before generalizing offset pending with
  | nil => exact scanFrom_apart apart offset pending
  | cons d before ih =>
      have place : offset + (d :: before).length = offset + 1 + before.length := by
        rw [List.length_cons]
        omega
      rw [List.cons_append, place, scanFrom, scanFrom]
      split
      · rw [ih, List.append_assoc, List.cons_append]
      · split
        · rw [ih, List.append_assoc, List.cons_append]
        · split
          · rw [ih, List.append_assoc]
          · rw [ih]

theorem scanFrom_append (parenthesis : isParenthesis c) (offset : Nat) :
    scanFrom offset pending (before ++ c :: after) =
      scanFrom offset pending before ++
        ⟨ofWord [c], offset + before.length⟩ :: scanFrom (offset + before.length + 1) [] after := by
  rw [scanFrom_append_apart (Text.apart_cons (.inr parenthesis) after)]
  obtain rfl | rfl := parenthesis <;> rfl

/-- The token, `n` characters further on. -/
def shift (n : Nat) (p : Placed) : Placed :=
  { p with offset := n + p.offset }

theorem flush_shift (n offset : Nat) (enough : pending.length ≤ offset) :
    flush pending (n + offset) = (flush pending offset).map (shift n) := by
  unfold flush
  split
  · rfl
  · simp [shift, Nat.add_sub_assoc enough]

theorem scanFrom_shift (n offset : Nat) (enough : pending.length ≤ offset) :
    scanFrom (n + offset) pending text = (scanFrom offset pending text).map (shift n) := by
  induction text generalizing offset pending with
  | nil => exact flush_shift n offset enough
  | cons c text ih =>
      have flushed := flush_shift n offset enough
      have later : scanFrom (n + offset + 1) [] text = _ := ih (offset + 1) (Nat.zero_le _)
      unfold scanFrom
      split
      · rw [flushed, later, List.map_append, List.map_cons]
        rfl
      · split
        · rw [flushed, later, List.map_append, List.map_cons]
          rfl
        · split
          · rw [flushed, later, List.map_append]
          · exact ih (offset + 1) (Nat.succ_le_succ enough)

theorem scanFrom_plain (plain : Text.Plain text) (offset : Nat) :
    ∀ p ∈ scanFrom offset pending text, ∃ name, p.token = .atom name := by
  have flushed (pending : List Char) (offset : Nat) :
      ∀ p ∈ flush pending offset, ∃ name, p.token = .atom name := by
    unfold flush
    split
    · exact nofun
    · exact List.forall_mem_singleton.mpr ⟨_, rfl⟩
  induction text generalizing offset pending with
  | nil => exact flushed pending offset
  | cons c text ih =>
      obtain ⟨other, plain⟩ := List.forall_mem_cons.mp plain
      obtain ⟨noOpening, noClosing⟩ := not_or.mp other
      rw [scanFrom, if_neg noOpening, if_neg noClosing]
      split
      · exact List.forall_mem_append.mpr ⟨flushed pending offset, ih plain (offset + 1)⟩
      · exact ih plain (offset + 1)

end Placed

theorem Token.split_plain {text : List Char} (plain : Text.Plain text) :
    ∀ t ∈ split text, ∃ name, t = .atom name := by
  intro t member
  rw [← Placed.map_token_scan] at member
  obtain ⟨p, found, rfl⟩ := List.mem_map.mp member
  exact Placed.scanFrom_plain plain 0 p found

end MiniLisp
