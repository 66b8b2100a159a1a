import MiniLisp.Editor.Index
import MiniLisp.Proofs.Reading.Balance

namespace MiniLisp

open Text

namespace Issue

section

variable {text before after : List Char}

theorem offset?_atoms {placed : List Placed} (atoms : ∀ p ∈ placed, ∃ name, p.token = .atom name)
    (opened : List Nat) (rest : List Placed) :
    offset? opened (placed ++ rest) = offset? opened rest := by
  induction placed with
  | nil => rfl
  | cons p placed ih =>
      obtain ⟨⟨name, atom⟩, others⟩ := List.forall_mem_cons.mp atoms
      obtain ⟨token, offset⟩ := p
      subst atom
      cases opened with
      | nil => exact ih others
      | cons => exact ih others

theorem offset?_opening (opened : List Nat) (offset : Nat) (rest : List Placed) :
    offset? opened (⟨.opening, offset⟩ :: rest) = offset? (offset :: opened) rest := by
  cases opened <;> rfl

theorem offset?_nested (nested : Nested text) (opened : List Nat) (offset : Nat)
    (rest : List Placed) :
    offset? opened (Placed.scanFrom offset [] text ++ rest) = offset? opened rest := by
  induction nested generalizing opened offset rest with
  | plain plain => exact offset?_atoms (Placed.scanFrom_plain plain offset) opened rest
  | group plain _ _ inside outside =>
      rw [Placed.scanFrom_append (.inl rfl), Placed.scanFrom_append (.inr rfl), List.append_assoc,
        offset?_atoms (Placed.scanFrom_plain plain offset), List.cons_append, List.append_assoc]
      exact (offset?_opening _ _ _).trans ((inside _ _ _).trans (outside _ _ _))

/-- Which parentheses are left open does not depend on what comes after them. -/
theorem offset?_steady (steady : Steady text) (opened : List Nat) (offset : Nat) :
    ∃ pushed, ∀ rest,
      offset? opened (Placed.scanFrom offset [] text ++ rest) = offset? pushed rest := by
  revert opened offset
  refine Steady.induct steady (fun text balanced opened offset => ?_) ?_
  · exact ⟨opened, offset?_nested balanced.nested opened offset⟩
  · intro before after balanced _ later opened offset
    obtain ⟨pushed, left⟩ := later ((offset + before.length) :: opened) (offset + before.length + 1)
    refine ⟨pushed, fun rest => ?_⟩
    rw [Placed.scanFrom_append (.inl rfl), List.append_assoc, offset?_nested balanced.nested]
    exact (offset?_opening _ _ _).trans (left rest)

theorem offset?_of_stray (balanced : Balanced before) :
    offset? [] (Placed.scan (before ++ ')' :: after)) = some before.length := by
  unfold Placed.scan
  rw [Placed.scanFrom_append (.inr rfl), offset?_nested balanced.nested, Nat.zero_add]
  rfl

theorem offset?_of_unclosed (steady : Steady before) (balanced : Balanced after) :
    offset? [] (Placed.scan (before ++ '(' :: after)) = some before.length := by
  obtain ⟨pushed, left⟩ := offset?_steady steady [] 0
  have closed := offset?_nested balanced.nested (before.length :: pushed) (before.length + 1) []
  rw [List.append_nil] at closed
  unfold Placed.scan
  rw [Placed.scanFrom_append (.inl rfl), left, Nat.zero_add]
  exact (offset?_opening _ _ _).trans closed

end

theorem ofText?_of_balanced {text : String} (balanced : Balanced text.toList) :
    ofText? text = none := by
  have finished : (Stream.ofSource text).readAll.2.1 = none := balanced.readAll
  rw [ofText?, finished]
  rfl

theorem ofText?_eq_some {text : String} {reason : SyntaxError} {offset : Nat}
    (failed : (Stream.ofSource text).readAll.2.1 = some reason)
    (found : offset? [] (Placed.scan text.toList) = some offset) :
    ofText? text = some { reason, position := .ofOffset text.toList offset } := by
  simp only [ofText?, failed, found, Option.map_some]

section

variable {text : String}

theorem of_unsteady (unsteady : ¬ Steady text.toList) :
    let last := (Stream.ofSource text).readAll.2
    ∃ k, FirstStray text.toList k ∧ offset? [] (Placed.scan text.toList) = some k ∧
      last.1 = some .unexpectedClosing ∧
      (Placed.scan text.toList)[last.2.cursor]? = some ⟨.closing, k⟩ := by
  obtain ⟨before, after, split, balanced⟩ := exists_stray unsteady
  obtain ⟨failed, cursor⟩ := readAll_of_stray balanced after
  rw [← split] at failed cursor
  have width : (Token.split before).length = (Placed.scan before).length := by
    rw [← Placed.map_token_scan, List.length_map]
  refine ⟨before.length, ?_, ?_, failed, ?_⟩
  · rw [split]
    exact balanced.firstStray after
  · rw [split]
    exact offset?_of_stray balanced
  · have stopped : (Stream.ofSource text).readAll.2.2.cursor = (Placed.scan before).length :=
      cursor.trans width
    have here : (Placed.scan before ++ ⟨.closing, before.length⟩ ::
        Placed.scanFrom (before.length + 1) [] after)[(Placed.scan before).length]? =
          some ⟨.closing, before.length⟩ := by
      rw [List.getElem?_append_right (Nat.le_refl _), Nat.sub_self]
      rfl
    rw [stopped, split, Placed.scan, Placed.scanFrom_append (.inr rfl), Nat.zero_add]
    exact here

theorem of_steady (steady : Steady text.toList) (unbalanced : ¬ Balanced text.toList) :
    ∃ k, LastUnclosed text.toList k ∧ offset? [] (Placed.scan text.toList) = some k ∧
      (Stream.ofSource text).readAll.2.1 = some .unbalanced := by
  obtain ⟨before, after, split, start, closed⟩ := steady.last_unclosed.resolve_left unbalanced
  obtain ⟨outer, inner, split', balanced, later⟩ := steady.first_unclosed.resolve_left unbalanced
  refine ⟨before.length, ?_, ?_, ?_⟩
  · rw [split]
    exact closed.lastUnclosed before
  · rw [split]
    exact offset?_of_unclosed start closed
  · have failed := readAll_of_unclosed balanced later
    rwa [← split'] at failed

/-- Where reading fails, the scan finds a place. -/
theorem exists_offset {reason : SyntaxError}
    (failed : (Stream.ofSource text).readAll.2.1 = some reason) :
    ∃ k, offset? [] (Placed.scan text.toList) = some k := by
  by_cases steady : Steady text.toList
  · have unbalanced : ¬ Balanced text.toList := by
      intro balanced
      cases balanced.readAll.symm.trans failed
    obtain ⟨k, _, found, _⟩ := of_steady steady unbalanced
    exact ⟨k, found⟩
  · obtain ⟨k, _, found, _⟩ := of_unsteady steady
    exact ⟨k, found⟩

end

end Issue

/-- A text has an issue if its parentheses do not balance. The issue is the first closing
parenthesis that matches none, at which the reader stopped, or else the last opening one that none
matches. -/
theorem syntax_issue_at_offending_parenthesis (text : String) :
    let chars := text.toList
    let cursor := (Stream.ofSource text).readAll.2.2.cursor
    (Placed.scan chars).map Placed.token = Token.tokenize text ∧
    (Issue.ofText? text = none ↔ Balanced chars) ∧
    (¬ Steady chars → ∃ issue k, Issue.ofText? text = some issue ∧
      issue.reason.message = "unexpected closing parenthesis" ∧
      issue.position = .ofOffset chars k ∧ FirstStray chars k ∧
      (Placed.scan chars)[cursor]? = some ⟨.closing, k⟩) ∧
    (Steady chars → ¬ Balanced chars → ∃ issue k, Issue.ofText? text = some issue ∧
      issue.reason.message = "unbalanced parentheses" ∧
      issue.position = .ofOffset chars k ∧ LastUnclosed chars k) ∧
    ∀ issue, Issue.ofText? text = some issue →
      issue.reason.message ≠ "missing token" ∧
        (Issue.offset? [] (Placed.scan chars)).isSome := by
  intro chars cursor
  refine ⟨Placed.map_token_scan chars, ⟨?_, Issue.ofText?_of_balanced⟩, ?_, ?_, ?_⟩
  · intro nothing
    apply Classical.byContradiction
    intro unbalanced
    by_cases steady : Steady chars
    · obtain ⟨_, _, found, failed⟩ := Issue.of_steady steady unbalanced
      rw [Issue.ofText?_eq_some failed found] at nothing
      contradiction
    · obtain ⟨_, _, found, failed, _⟩ := Issue.of_unsteady steady
      rw [Issue.ofText?_eq_some failed found] at nothing
      contradiction
  · intro unsteady
    obtain ⟨k, stray, found, failed, stopped⟩ := Issue.of_unsteady unsteady
    exact ⟨_, k, Issue.ofText?_eq_some failed found, rfl, rfl, stray, stopped⟩
  · intro steady unbalanced
    obtain ⟨k, unclosed, found, failed⟩ := Issue.of_steady steady unbalanced
    exact ⟨_, k, Issue.ofText?_eq_some failed found, rfl, rfl, unclosed⟩
  · intro issue reported
    by_cases steady : Steady chars
    · have unbalanced : ¬ Balanced chars := by
        intro balanced
        rw [Issue.ofText?_of_balanced balanced] at reported
        contradiction
      obtain ⟨_, _, found, failed⟩ := Issue.of_steady steady unbalanced
      cases (Issue.ofText?_eq_some failed found).symm.trans reported
      have different : SyntaxError.unbalanced.message ≠ "missing token" := by decide
      exact ⟨different, Option.isSome_of_eq_some found⟩
    · obtain ⟨_, _, found, failed, _⟩ := Issue.of_unsteady steady
      cases (Issue.ofText?_eq_some failed found).symm.trans reported
      have different : SyntaxError.unexpectedClosing.message ≠ "missing token" := by decide
      exact ⟨different, Option.isSome_of_eq_some found⟩

/-- A text with a stray closing parenthesis before one that is not closed, and a text with two that
are not closed. -/
theorem syntax_issue_at_offending_parenthesis_both :
    (¬ Steady "(a))(".toList ∧ ∃ issue, Issue.ofText? "(a))(" = some issue ∧
      issue.reason.message = "unexpected closing parenthesis" ∧ issue.position = ⟨0, 3⟩) ∧
    (Steady "(b\n(c".toList ∧ ¬ Balanced "(b\n(c".toList ∧
      ∃ issue, Issue.ofText? "(b\n(c" = some issue ∧
        issue.reason.message = "unbalanced parentheses" ∧ issue.position = ⟨1, 0⟩) := by
  have unsteady : ¬ Steady "(a))(".toList := fun steady => absurd (steady 4) (by decide +kernel)
  have third : FirstStray "(a))(".toList 3 :=
    ⟨by decide +kernel, by decide +kernel, by decide +kernel⟩
  have chars : "(b\n(c".toList = [] ++ '(' :: (['b', '\n'] ++ '(' :: ['c']) := by decide +kernel
  have steady : Steady "(b\n(c".toList := by
    have first : Plain ['b', '\n'] := by simp [Plain, Token.isParenthesis]
    have second : Plain ['c'] := by simp [Plain, Token.isParenthesis]
    rw [chars]
    exact balanced_nil.append_opening (first.balanced.append_opening second.steady)
  have unbalanced : ¬ Balanced "(b\n(c".toList :=
    fun balanced => absurd balanced.settled (by decide +kernel)
  have fourth : LastUnclosed "(b\n(c".toList 3 := by
    have rest : "(b\n(c".toList.drop 4 = ['c'] := by decide +kernel
    have only : ∀ j < 5, 3 < j → "(b\n(c".toList[j]? ≠ some '(' := by decide +kernel
    have size : "(b\n(c".toList.length = 5 := by decide +kernel
    refine ⟨by decide +kernel, ?_, fun j later found => ?_⟩
    · rw [rest]
      exact Plain.steady (by simp [Plain, Token.isParenthesis])
    · have inside := size ▸ (List.getElem?_eq_some_iff.mp found).1
      exact absurd found (only j inside later)
  obtain ⟨_, _, stray, _⟩ := syntax_issue_at_offending_parenthesis "(a))("
  obtain ⟨_, _, _, unclosed, _⟩ := syntax_issue_at_offending_parenthesis "(b\n(c"
  obtain ⟨issue, k, reported, message, place, here, _⟩ := stray unsteady
  obtain ⟨issue', k', reported', message', place', here'⟩ := unclosed steady unbalanced
  cases here.eq third
  cases here'.eq fourth
  have position : Position.ofOffset "(a))(".toList 3 = ⟨0, 3⟩ := by decide +kernel
  have position' : Position.ofOffset "(b\n(c".toList 3 = ⟨1, 0⟩ := by decide +kernel
  exact ⟨⟨unsteady, issue, reported, message, place.trans position⟩,
    steady, unbalanced, issue', reported', message', place'.trans position'⟩

end MiniLisp
