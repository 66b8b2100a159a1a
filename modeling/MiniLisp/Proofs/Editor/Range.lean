import MiniLisp.Proofs.Editor.Syntax
import MiniLisp.Proofs.Editor.Word
import MiniLisp.Proofs.Text.Offset

namespace MiniLisp

open Text

/-- The word is what the span covers of its line. -/
def Span.Selects (span : Span) (text word : List Char) : Prop :=
  ∃ before after, (text.splitOn '\n')[span.line]? = some (before ++ (word ++ after)) ∧
    before.length = span.start ∧ before.length + word.length = span.stop

namespace Placed

variable {text : List Char} {p : Placed}

theorem single_of_mem_scan (scanned : p ∈ scan text) : '\n' ∉ p.token.text.toList := by
  obtain ⟨token, offset⟩ := p
  cases token with
  | opening => exact (by decide : '\n' ∉ Token.opening.text.toList)
  | closing => exact (by decide : '\n' ∉ Token.closing.text.toList)
  | atom name =>
      have solid : Token.Solid name := allSolid_scan text name (List.mem_map_of_mem scanned)
      exact fun breaks => Bool.noConfusion (solid.unblank '\n' breaks)

theorem selects_of_mem_scan (scanned : p ∈ scan text) :
    let place := Position.ofOffset text p.offset
    Span.Selects ⟨place.line, place.column, place.column + p.token.text.length⟩ text
      p.token.text.toList := by
  intro place
  have stands := stands_of_mem_scan text p scanned
  obtain ⟨left, right, line, column, _⟩ := Position.exists_line (text.take p.offset)
    (single_of_mem_scan scanned) (text.drop (p.offset + p.token.text.length))
  rw [← stands.eq_append] at line
  refine ⟨left, right, line, column, ?_⟩
  rw [column, String.length_toList]
  rfl

end Placed

namespace Issue

theorem offset?_rec {P : Nat → Prop} {opened : List Nat} {placed : List Placed} {k : Nat}
    (older : ∀ k ∈ opened, P k)
    (parentheses : ∀ p ∈ placed, p.token = .opening ∨ p.token = .closing → P p.offset)
    (found : offset? opened placed = some k) : P k := by
  fun_induction offset? opened placed with
  | case1 opened => exact older k (List.mem_of_mem_head? found)
  | case2 opened offset rest ih =>
      obtain ⟨here, later⟩ := List.forall_mem_cons.mp parentheses
      exact ih (List.forall_mem_cons.mpr ⟨here (.inl rfl), older⟩) later found
  | case3 offset rest =>
      cases found
      exact parentheses _ List.mem_cons_self (.inr rfl)
  | case4 last opened offset rest ih =>
      exact ih (List.forall_mem_cons.mp older).2 (List.forall_mem_cons.mp parentheses).2 found
  | case5 opened name offset rest ih =>
      exact ih older (List.forall_mem_cons.mp parentheses).2 found

/-- Every issue stands at a scanned parenthesis. -/
theorem exists_scanned {text : String} {issue : Issue} (reported : ofText? text = some issue) :
    ∃ p ∈ Placed.scan text.toList, (p.token = .opening ∨ p.token = .closing) ∧
      issue.position = .ofOffset text.toList p.offset := by
  obtain ⟨reason, failed, _⟩ := Option.map_eq_some_iff.mp reported
  obtain ⟨k, found⟩ := exists_offset failed
  cases (ofText?_eq_some failed found).symm.trans reported
  refine offset?_rec (P := fun k => ∃ p ∈ Placed.scan text.toList,
    (p.token = .opening ∨ p.token = .closing) ∧ Position.ofOffset _ k = .ofOffset _ p.offset)
    ?_ ?_ found
  · exact fun _ opened => absurd opened List.not_mem_nil
  · exact fun p scanned parenthesis => ⟨p, scanned, parenthesis, rfl⟩

end Issue

/-- The position of an offset is on a line of the text and not beyond its end, and the line's start
and the column lead back to the offset. Every such position comes from one offset, and later offsets
have later positions. What the index shows of a name or of an issue covers one scanned token. -/
theorem offsets_match_positions (text : String) :
    let chars := text.toList
    (∀ k ≤ chars.length, (Position.ofOffset chars k).Inside chars ∧
      (Position.ofOffset chars k).offset chars = k) ∧
    (∀ place : Position, place.Inside chars → place.offset chars ≤ chars.length ∧
      .ofOffset chars (place.offset chars) = place) ∧
    (∀ j k, j < k → k ≤ chars.length →
      (Position.ofOffset chars j).Precedes (.ofOffset chars k)) ∧
    (∀ name d, (name, d) ∈ (Index.ofText text).definitions.entries →
      ∃ p ∈ Placed.scan chars, p.token = .atom name ∧ d.position = .ofOffset chars p.offset ∧
        (d.span name).Selects chars name.toList) ∧
    ∀ issue, (Index.ofText text).issue? = some issue →
      ∃ p ∈ Placed.scan chars, (p.token = .opening ∨ p.token = .closing) ∧
        issue.position = .ofOffset chars p.offset ∧
        issue.diagnostic.span.Selects chars p.token.text.toList := by
  intro chars
  refine ⟨fun k within => Position.ofOffset_inside within,
    fun place inside => ⟨inside.offset_le, inside.ofOffset_offset⟩, ?_, ?_, ?_⟩
  · intro j k earlier within
    obtain ⟨inside, back⟩ := Position.ofOffset_inside (Nat.le_trans (Nat.le_of_lt earlier) within)
    obtain ⟨inside', back'⟩ := Position.ofOffset_inside within
    rw [inside.precedes_iff inside', back, back']
    exact earlier
  · intro name d entry
    obtain ⟨e, collected, same⟩ := List.mem_map.mp (Table.mem_ofList entry)
    cases same
    have scanned := DefinedName.mem_of_mem_collect collected
    exact ⟨_, scanned, rfl, rfl, Placed.selects_of_mem_scan scanned⟩
  · intro issue reported
    obtain ⟨p, scanned, parenthesis, position⟩ := Issue.exists_scanned reported
    have single : p.token.text.length = 1 := by
      obtain opening | closing := parenthesis
      · rw [opening]
        rfl
      · rw [closing]
        rfl
    have covered := Placed.selects_of_mem_scan scanned
    rw [single, ← position] at covered
    exact ⟨p, scanned, parenthesis, position, covered⟩

/-- Two definitions, on the first line and on the second, and an opening parenthesis that is not
closed. -/
theorem offsets_match_positions_lines :
    let text := "(define x 1)\n (define foo (lambda (y) y)"
    let chars := text.toList
    (Position.ofOffset chars 12).offset chars = 12 ∧
      Position.ofOffset chars (Position.offset chars ⟨1, 1⟩) = ⟨1, 1⟩ ∧
      (Position.ofOffset chars 12).Precedes (.ofOffset chars 13) ∧
      (⟨1, 9, 12⟩ : Span).Selects chars "foo".toList ∧
      (⟨1, 1, 2⟩ : Span).Selects chars "(".toList := by
  intro text chars
  obtain ⟨forward, backward, order, definitions, issues⟩ := offsets_match_positions text
  have foo : ("foo", ⟨.function, ⟨1, 9⟩⟩) ∈ (Index.ofText text).definitions.entries := by
    decide +kernel
  have unclosed : (Index.ofText text).issue? = some ⟨.unbalanced, ⟨1, 1⟩⟩ := by decide +kernel
  have whole : 13 ≤ chars.length := by decide +kernel
  have inside : Position.Inside chars ⟨1, 1⟩ :=
    ⟨" (define foo (lambda (y) y)".toList, by decide +kernel, by decide +kernel⟩
  have only : ∀ p ∈ Placed.scan chars, Position.ofOffset chars p.offset = ⟨1, 1⟩ →
      p.token.text.toList = "(".toList := by
    decide +kernel
  have covered : (Definition.mk .function ⟨1, 9⟩).span "foo" = ⟨1, 9, 12⟩ := by decide +kernel
  obtain ⟨_, _, _, _, name⟩ := definitions _ _ foo
  obtain ⟨q, scanned, _, position, opening⟩ := issues _ unclosed
  rw [covered] at name
  rw [only q scanned position.symm] at opening
  exact ⟨(forward 12 (Nat.le_of_succ_le whole)).2, (backward _ inside).2,
    order 12 13 (by decide) whole, name, opening⟩

end MiniLisp
