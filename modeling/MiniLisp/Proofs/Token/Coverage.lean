import MiniLisp.Proofs.Token.Places
import MiniLisp.Proofs.Token.Spacing

namespace MiniLisp

namespace Placed

open Token

def stop (p : Placed) : Nat :=
  p.offset + p.token.text.length

def Covers (p : Placed) (i : Nat) : Prop :=
  p.offset ≤ i ∧ i < p.stop

/-- The tokens of the pieces, where they stand if the first gap begins at `offset`. -/
def places (offset : Nat) : List Piece → List Placed
  | [] => []
  | piece :: pieces =>
    let start := offset + piece.gap.length
    ⟨piece.token, start⟩ :: places (start + piece.token.text.length) pieces

section

variable {gap word text pending : List Char}

theorem scanFrom_gap (blank : ∀ c ∈ gap, Text.isBlank c = true) (offset : Nat) (text : List Char) :
    scanFrom offset [] (gap ++ text) = scanFrom (offset + gap.length) [] text := by
  induction gap generalizing offset with
  | nil => rfl
  | cons c gap ih =>
      obtain ⟨here, later⟩ := List.forall_mem_cons.mp blank
      have noOpening : c ≠ '(' := by rintro rfl; contradiction
      have noClosing : c ≠ ')' := by rintro rfl; contradiction
      have width : offset + 1 + gap.length = offset + (c :: gap).length := by
        simp only [List.length_cons]
        omega
      rw [List.cons_append, scanFrom, if_neg noOpening, if_neg noClosing, if_pos here, ih later,
        width]
      rfl

theorem scanFrom_solid (solid : ∀ c ∈ word, Text.isSolid c = true) (offset : Nat)
    (pending text : List Char) :
    scanFrom offset pending (word ++ text) =
      scanFrom (offset + word.length) (word.reverse ++ pending) text := by
  induction word generalizing offset pending with
  | nil => rfl
  | cons c word ih =>
      obtain ⟨here, later⟩ := List.forall_mem_cons.mp solid
      obtain ⟨unblank, plain⟩ := Text.isSolid_eq_true_iff.mp here
      obtain ⟨noOpening, noClosing⟩ := not_or.mp plain
      have width : offset + 1 + word.length = offset + (c :: word).length := by
        simp only [List.length_cons]
        omega
      rw [List.cons_append, scanFrom, if_neg noOpening, if_neg noClosing, unblank,
        if_neg Bool.false_ne_true, ih later, width]
      simp

theorem scanFrom_token {token : Token} (fits : token.Fits text) (offset : Nat) :
    scanFrom offset [] (token.text.toList ++ text) =
      ⟨token, offset⟩ :: scanFrom (offset + token.text.length) [] text := by
  cases token with
  | opening =>
      have width : "(".length = 1 := by decide
      simp [Token.text, scanFrom, flush, width]
  | closing =>
      have width : ")".length = 1 := by decide
      simp [Token.text, scanFrom, flush, width]
  | atom name =>
      obtain ⟨solid, apart⟩ := fits name rfl
      have inside : ∀ c ∈ name.toList, Text.isSolid c = true := fun c member =>
        Text.isSolid_eq_true_iff.mpr ⟨solid.unblank c member, solid.plain c member⟩
      have word : flush name.toList.reverse (offset + name.length) = [⟨.atom name, offset⟩] := by
        simp [flush, solid.nonempty, String.length_toList]
      rw [Token.text, scanFrom_solid inside, scanFrom_apart apart, List.append_nil,
        String.length_toList, word]
      rfl

end

section

variable {last : String} {pieces : List Piece} {offset : Nat}

theorem scanFrom_write (spaced : Spaced last pieces) (offset : Nat) :
    scanFrom offset [] (write last pieces).toList = places offset pieces := by
  induction pieces generalizing offset with
  | nil =>
      have blank := scanFrom_gap spaced.blankLast offset []
      rw [List.append_nil] at blank
      exact blank
  | cons piece pieces ih =>
      obtain ⟨blank, fits, rest⟩ := spaced_cons.mp spaced
      rw [toList_write_cons, scanFrom_gap blank, String.length_toList, scanFrom_token fits,
        ih rest]
      rfl

theorem le_offset_of_mem_places {p : Placed} (member : p ∈ places offset pieces) :
    offset ≤ p.offset := by
  induction pieces generalizing offset with
  | nil => contradiction
  | cons piece pieces ih =>
      rcases List.mem_cons.mp member with rfl | later
      · exact Nat.le_add_right _ _
      · have := ih later
        omega

theorem pairwise_places (offset : Nat) (pieces : List Piece) :
    (places offset pieces).Pairwise fun p q => p.stop ≤ q.offset := by
  induction pieces generalizing offset with
  | nil => exact .nil
  | cons piece pieces ih =>
      exact List.pairwise_cons.mpr ⟨fun q later => le_offset_of_mem_places later, ih _⟩

/-- A character is blank if it stands in a gap, and else it is a part of a token. -/
theorem isBlank_iff_uncovered (spaced : Spaced last pieces) {i : Nat} {c : Char}
    (here : (write last pieces).toList[i]? = some c) :
    Text.isBlank c = true ↔ ¬ ∃ p ∈ places offset pieces, p.Covers (offset + i) := by
  induction pieces generalizing offset i with
  | nil =>
      have blank := spaced.blankLast c (List.mem_of_getElem? here)
      simp [places, blank]
  | cons piece pieces ih =>
      obtain ⟨blank, fits, rest⟩ := spaced_cons.mp spaced
      have unblank := unblank_of_solid fun name same => (fits name same).1
      have behind {p : Placed}
          (later : p ∈ places (offset + piece.gap.length + piece.token.text.length) pieces) :=
        le_offset_of_mem_places later
      -- The place is in the first gap, in the first token, or behind both.
      rw [toList_write_cons, List.getElem?_append, String.length_toList] at here
      split at here
      · rename_i inGap
        refine iff_of_true (blank c (List.mem_of_getElem? here)) ?_
        rintro ⟨p, member, low, -⟩
        rcases List.mem_cons.mp member with rfl | later
        · simp only at low
          omega
        · have := behind later
          omega
      · rw [List.getElem?_append, String.length_toList] at here
        split at here
        · have solid := unblank c (List.mem_of_getElem? here)
          refine iff_of_false (by simp [solid]) (not_not_intro ?_)
          refine ⟨_, List.mem_cons_self, ?_⟩
          simp only [Covers, stop]
          omega
        · let start := offset + piece.gap.length + piece.token.text.length
          have place : start + (i - piece.gap.length - piece.token.text.length) = offset + i := by
            omega
          have outside : ¬ Covers ⟨piece.token, offset + piece.gap.length⟩ (offset + i) := by
            simp only [Covers, stop]
            omega
          have covered : Text.isBlank c = true ↔
              ¬ ∃ p ∈ places start pieces, p.Covers (start + _) := ih rest here
          rw [place] at covered
          simpa [places, outside] using covered

end

end Placed

/-- The tokens of a scan are those of the text, in the same order. They stand one behind the other,
each where the text reads it, and all that they leave out is blank. -/
theorem scan_agrees_with_tokenize (text : String) :
    let chars := text.toList
    let placed := Placed.scan chars
    placed.map Placed.token = Token.tokenize text ∧
    (placed.map Placed.offset).Pairwise (· < ·) ∧
    placed.Pairwise (fun p q => p.stop ≤ q.offset) ∧
    (∀ p ∈ placed, (chars.drop p.offset).take p.token.text.length = p.token.text.toList) ∧
    ∀ i c, chars[i]? = some c →
      (Text.isBlank c = true ↔ ¬ ∃ p ∈ placed, p.Covers i) := by
  intro chars placed
  obtain ⟨last, pieces, spaced, _, written⟩ := Token.exists_spaced text
  have found : placed = Placed.places 0 pieces := by
    rw [← Placed.scanFrom_write spaced 0, written]
    rfl
  have tokens : placed.map Placed.token = Token.tokenize text := Placed.map_token_scan chars
  have apart : placed.Pairwise fun p q => p.stop ≤ q.offset := by
    rw [found]
    exact Placed.pairwise_places 0 pieces
  refine ⟨tokens, ?_, apart, fun p member => (Placed.stands_of_mem_scan chars p member).read,
    fun i c here => ?_⟩
  · refine List.pairwise_map.mpr (apart.imp_of_mem fun {p q} member _ behind => ?_)
    have listed : p.token ∈ placed.map Placed.token := List.mem_map_of_mem member
    have solid (name : String) (same : p.token = .atom name) : Token.Solid name :=
      Placed.allSolid_scan chars name (same ▸ listed)
    have present : 0 < p.token.text.length := by
      simpa [Nat.pos_iff_ne_zero] using Token.text_ne_empty_of_solid solid
    simp only [Placed.stop] at behind
    omega
  · rw [found, ← Nat.zero_add i]
    apply Placed.isBlank_iff_uncovered spaced
    rwa [written]

/-- A no-break space between two atoms. -/
theorem scan_agrees_with_tokenize_no_break :
    let chars := "(é\u00a0b)".toList
    ⟨.atom "b", 3⟩ ∈ Placed.scan chars ∧ (chars.drop 3).take "b".length = "b".toList ∧
      chars[2]? = some '\u00a0' ∧ ¬ ∃ p ∈ Placed.scan chars, p.Covers 2 := by
  intro chars
  obtain ⟨_, _, _, reads, gaps⟩ := scan_agrees_with_tokenize "(é\u00a0b)"
  have member : ⟨.atom "b", 3⟩ ∈ Placed.scan chars := by decide +kernel
  have between : chars[2]? = some '\u00a0' := by decide +kernel
  have blank : Text.isBlank '\u00a0' = true := by decide
  exact ⟨member, reads _ member, between, (gaps 2 _ between).mp blank⟩

end MiniLisp
