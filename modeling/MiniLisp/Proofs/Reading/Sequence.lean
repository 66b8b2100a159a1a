import MiniLisp.Proofs.Reading.Stream

namespace MiniLisp

/-- The values are cut off the tokens one after the other, and `rest` is left. -/
inductive CutOff : List Token → List Value → List Token → Prop where
  | done : CutOff tokens [] tokens
  | next (first : Value.read tokens = .ok (v, left)) (later : CutOff left values rest) :
      CutOff tokens (v :: values) rest

theorem DerivesAll.cutOff : DerivesAll used values → ∀ rest, CutOff (used ++ rest) values rest
  | .nil, _ => .done
  | .cons first others, rest => by
      rw [List.append_assoc]
      exact .next (read_eq_ok_iff.mpr ⟨_, rfl, first⟩) (others.cutOff rest)

/-- Every value takes a token at least. -/
theorem DerivesAll.length_le : DerivesAll used values → values.length ≤ used.length
  | .nil => Nat.le_refl _
  | .cons first others => by
      have present := List.length_pos_iff.mpr first.ne_nil
      have later := others.length_le
      rw [List.length_append, List.length_cons]
      omega

theorem SyntaxError.map_message_eq_some_iff {failure : Option SyntaxError} {e : SyntaxError} :
    failure.map message = some e.message ↔ failure = some e := by
  cases failure <;> simp [message_inj]

namespace Stream

variable {s t : Stream} {v : Value}

/-- A stream reads what is cut off its tokens, and the tokens behind its cursor are what is left. -/
theorem next_eq_ok_iff_read : s.next = .ok (v, t) ↔
    t.tokens = s.tokens ∧ s.cursor < t.cursor ∧ t.cursor ≤ s.tokens.length ∧
      Value.read s.rest = .ok (v, t.rest) := by
  constructor
  · intro found
    obtain ⟨used, derived, split⟩ := rest_of_next found
    obtain ⟨same, within, _⟩ := next_eq_ok_iff.mp found
    have ahead := length_rest_next_lt found
    simp only [rest, List.length_drop, same] at ahead
    exact ⟨same, by omega, within, read_eq_ok_iff.mpr ⟨used, split, derived⟩⟩
  · rintro ⟨same, ahead, within, read⟩
    obtain ⟨used, split, derived⟩ := read_eq_ok_iff.mp read
    refine next_eq_ok_iff.mpr ⟨same, within, ?_⟩
    have width := congrArg List.length split
    simp only [rest, List.length_append, List.length_drop, same] at width
    have place : t.cursor = s.cursor + used.length := by omega
    rwa [place, extract_of_drop_eq split]

theorem readAll_eq_none_iff : s.readAll.2.1 = none ↔ s.readAll.2.2.rest = [] := by
  obtain ⟨finished, empty⟩ | ⟨reason, ended, more, _⟩ := s.readAll_stops
  · exact iff_of_true finished empty
  · exact iff_of_false (by simp [ended]) more

theorem readAll_eq_some_iff {reason : SyntaxError} : s.readAll.2.1 = some reason ↔
    s.readAll.2.2.rest ≠ [] ∧ s.readAll.2.2.next = .error reason := by
  obtain ⟨finished, empty⟩ | ⟨other, ended, more, failed⟩ := s.readAll_stops
  · exact iff_of_false (by simp [finished]) fun stopped => stopped.1 empty
  · rw [ended, failed, Option.some.injEq, Except.error.injEq]
    exact (and_iff_right more).symm

/-- Reading on where reading has ended changes nothing. -/
theorem readAll_again (s : Stream) :
    s.readAll.2.2.readAll = ([], s.readAll.2.1, s.readAll.2.2) := by
  obtain ⟨finished, empty⟩ | ⟨reason, ended, more, failed⟩ := s.readAll_stops
  · rw [readAll_of_nil empty, finished]
  · rw [readAll_of_error more failed, ended]

theorem readAll_eq_unexpected_iff : s.readAll.2.1 = some .unexpectedClosing ↔
    s.readAll.2.2.rest.head? = some .closing := by
  rw [readAll_eq_some_iff, next_eq_error_iff, read_eq_unexpected_iff]
  refine and_iff_right_of_imp fun stray empty => ?_
  rw [empty] at stray
  contradiction

theorem readAll_eq_unbalanced_iff : s.readAll.2.1 = some .unbalanced ↔
    s.readAll.2.2.rest ≠ [] ∧ s.readAll.2.2.rest.head? ≠ some .closing := by
  rw [ne_eq (List.head? _), ← readAll_eq_unexpected_iff]
  obtain ⟨finished, empty⟩ | ⟨reason, ended, more, failed⟩ := s.readAll_stops
  · simp [finished, empty]
  · have present : reason ≠ .missingToken := by
      rintro rfl
      exact more (read_eq_missing_iff.mp (next_eq_error_iff.mp failed))
    rw [ended]
    cases reason <;> simp_all

/-- Whatever sequence of values begins at the cursor, reading goes through it. -/
theorem readAll_longest {used rest : List Token} {others : List Value}
    (derived : DerivesAll used others) (split : s.rest = used ++ rest) :
    s.cursor + used.length ≤ s.readAll.2.2.cursor ∧
      (s.cursor + used.length = s.readAll.2.2.cursor → others = s.readAll.1) := by
  obtain ⟨more, later, _, moved⟩ := (s.advance used.length).readAll_advance
  have place : (s.advance used.length).readAll.2.2.cursor =
      s.cursor + used.length + more.length := by
    rw [moved]
    rfl
  rw [derived.readAll split, place]
  refine ⟨Nat.le_add_right _ _, fun same => ?_⟩
  have few := later.length_le
  have none : (s.advance used.length).readAll.1 = [] := List.length_eq_zero_iff.mp (by omega)
  rw [none, List.append_nil]

end Stream

/-- A stream reads at its cursor what is cut off the tokens behind it, and moves forward by what it
takes. All that it reads is the longest sequence of complete values that begins at the cursor: it
ends without a failure if no token is left behind the sequence, and otherwise stops there, now and
at every later attempt. -/
theorem stream_reads_longest_sequence (tokens : List Token) (position : Nat) :
    let s : Stream := { tokens, cursor := position }
    let values := s.readAll.1
    let message := s.readAll.2.1.map SyntaxError.message
    let last := s.readAll.2.2
    (∀ v t, s.next = .ok (v, t) ↔ t.tokens = tokens ∧ position < t.cursor ∧
      t.cursor ≤ tokens.length ∧
      Value.read (tokens.drop position) = .ok (v, tokens.drop t.cursor)) ∧
    (∀ reason, s.next = .error reason ↔ Value.read (tokens.drop position) = .error reason) ∧
    last.tokens = tokens ∧ position ≤ last.cursor ∧
    (position ≤ tokens.length → last.cursor ≤ tokens.length) ∧
    values.length ≤ last.cursor - position ∧
    DerivesAll (tokens.extract position last.cursor) values ∧
    CutOff (tokens.drop position) values (tokens.drop last.cursor) ∧
    (∀ p others, p ≤ tokens.length → DerivesAll (tokens.extract position p) others →
      p ≤ last.cursor ∧ (p = last.cursor → others = values)) ∧
    (message = none ↔ tokens.length ≤ last.cursor) ∧
    (message = some "unexpected closing parenthesis" ↔ tokens[last.cursor]? = some .closing) ∧
    (message = some "unbalanced parentheses" ↔
      last.cursor < tokens.length ∧ tokens[last.cursor]? ≠ some .closing) ∧
    last.readAll = ([], s.readAll.2.1, last) ∧
    ∀ reason, s.readAll.2.1 = some reason → last.next = .error reason := by
  intro s values message last
  obtain ⟨used, derived, split, moved⟩ := s.readAll_advance
  have place : last.cursor = position + used.length := congrArg Stream.cursor moved
  have same : last.tokens = tokens := congrArg Stream.tokens moved
  have left : last.rest = tokens.drop last.cursor := congrArg (List.drop last.cursor) same
  have rest : tokens.drop position = used ++ tokens.drop last.cursor := left ▸ split
  have width : tokens.length - position = used.length + (tokens.length - last.cursor) := by
    rw [← List.length_drop, rest, List.length_append, List.length_drop]
  have first : last.rest.head? = tokens[last.cursor]? := by rw [left, List.head?_drop]
  have ended : last.rest = [] ↔ tokens.length ≤ last.cursor := by rw [left, List.drop_eq_nil_iff]
  refine ⟨fun v t => ?_, fun reason => Stream.next_eq_error_iff, same, by omega, by omega, ?_, ?_,
    ?_, ?_, ?_, ?_, ?_, s.readAll_again, fun reason failed => ?_⟩
  · rw [Stream.next_eq_ok_iff_read]
    refine and_congr_right fun equal => ?_
    rw [Stream.rest, Stream.rest, equal]
  · rw [place, Nat.add_sub_cancel_left]
    exact derived.length_le
  · rwa [place, extract_of_drop_eq rest]
  · have cut := derived.cutOff last.rest
    rwa [← split, left] at cut
  · intro p others within found
    have size : (tokens.extract position p).length = p - position := by
      rw [List.extract_eq_take_drop, List.length_take, List.length_drop]
      exact Nat.min_eq_left (Nat.sub_le_sub_right within position)
    have split : s.rest = tokens.extract position p ++ _ :=
      (extract_append_drop tokens position p).symm
    obtain ⟨reached, unique⟩ := Stream.readAll_longest found split
    have reached : position + (p - position) ≤ last.cursor := size ▸ reached
    refine ⟨by omega, fun whole => unique ?_⟩
    have whole : position + (p - position) = last.cursor := by omega
    exact size ▸ whole
  · rw [← ended, ← Stream.readAll_eq_none_iff]
    exact Option.map_eq_none_iff
  · rw [← first, ← Stream.readAll_eq_unexpected_iff]
    exact SyntaxError.map_message_eq_some_iff (e := .unexpectedClosing)
  · rw [← first, ← Nat.not_le, ← ended, ← Stream.readAll_eq_unbalanced_iff]
    exact SyntaxError.map_message_eq_some_iff (e := .unbalanced)
  · exact (Stream.readAll_eq_some_iff.mp failed).2

/-- A list from a cursor inside of the tokens on, and behind it a parenthesis that matches none. -/
theorem stream_reads_longest_sequence_stray :
    let tokens : List Token := [.atom "a", .opening, .atom "b", .closing, .closing, .atom "c"]
    let s : Stream := { tokens, cursor := 1 }
    DerivesAll (tokens.extract 1 4) [.list [.ofAtom "b"]] ∧
      s.readAll.1 = [.list [.ofAtom "b"]] ∧ s.readAll.2.2.cursor = 4 ∧
      s.readAll.2.1 = some .unexpectedClosing ∧
      s.readAll.2.2.next = .error .unexpectedClosing := by
  intro tokens s
  have derived : DerivesAll (tokens.extract 1 4) [.list [.ofAtom "b"]] :=
    .cons (.list (.cons .atom .nil)) .nil
  have cursor : s.readAll.2.2.cursor = 4 := by decide +kernel
  have failure : s.readAll.2.1 = some .unexpectedClosing := by decide +kernel
  obtain ⟨_, _, _, _, _, _, _, _, longest, _, _, _, _, again⟩ :=
    stream_reads_longest_sequence tokens 1
  have values := (longest 4 _ (by decide) derived).2 cursor.symm
  exact ⟨derived, values.symm, cursor, failure, again _ failure⟩

end MiniLisp
