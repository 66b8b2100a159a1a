import MiniLisp.Proofs.Reading.Grammar

namespace MiniLisp

namespace Stream

variable {s t : Stream} {v : Value} {reason : SyntaxError}

theorem rest_ne_nil_of_next (found : s.next = .ok (v, t)) : s.rest ≠ [] := by
  intro empty
  have shorter := length_rest_next_lt found
  rw [empty] at shorter
  exact Nat.not_lt_zero _ shorter

/-- Reading takes one derivation off the tokens that are left. -/
theorem rest_of_next (found : s.next = .ok (v, t)) :
    ∃ used, Derives used v ∧ s.rest = used ++ t.rest := by
  obtain ⟨same, _, derived⟩ := next_eq_ok_iff.mp found
  have shorter := length_rest_next_lt found
  simp only [rest, List.length_drop, same] at shorter
  have ahead : s.cursor + (t.cursor - s.cursor) = t.cursor := by omega
  refine ⟨_, derived, ?_⟩
  rw [rest, rest, same, ← ahead, ← List.drop_drop, ahead]
  exact (extract_append_drop _ _ _).symm

theorem readAll_of_nil (empty : s.rest = []) : s.readAll = ([], none, s) := by
  rw [readAll, if_pos (List.isEmpty_iff.mpr empty)]

theorem readAll_of_ok (found : s.next = .ok (v, t)) :
    s.readAll = (v :: t.readAll.1, t.readAll.2) := by
  have more := mt List.isEmpty_iff.mp (rest_ne_nil_of_next found)
  rw [readAll, if_neg more]
  split
  · rename_i failed
    cases failed.symm.trans found
  · rename_i found'
    cases found'.symm.trans found
    rfl

theorem readAll_of_error (more : s.rest ≠ []) (failed : s.next = .error reason) :
    s.readAll = ([], some reason, s) := by
  rw [readAll, if_neg (mt List.isEmpty_iff.mp more)]
  split
  · rename_i failed'
    cases failed'.symm.trans failed
    rfl
  · rename_i found
    cases found.symm.trans failed

/-- Reading ends where no tokens are left, or where the next value cannot be read. -/
theorem readAll_stops (s : Stream) :
    let last := s.readAll.2.2
    s.readAll.2.1 = none ∧ last.rest = [] ∨
      ∃ reason, s.readAll.2.1 = some reason ∧ last.rest ≠ [] ∧ last.next = .error reason := by
  fun_induction readAll s with
  | case1 s empty => exact .inl ⟨rfl, List.isEmpty_iff.mp empty⟩
  | case2 s more reason failed => exact .inr ⟨reason, rfl, mt List.isEmpty_iff.mpr more, failed⟩
  | case3 s _ v t found values failure last all ih =>
      rw [all] at ih
      exact ih

/-- The stream after `n` more tokens. -/
def advance (s : Stream) (n : Nat) : Stream :=
  { s with cursor := s.cursor + n }

theorem advance_advance (s : Stream) (m n : Nat) : (s.advance m).advance n = s.advance (m + n) :=
  congrArg (Stream.mk s.tokens) (Nat.add_assoc _ _ _)

theorem rest_advance {s : Stream} {used rest : List Token} (split : s.rest = used ++ rest) :
    (s.advance used.length).rest = rest := by
  have moved : (s.advance used.length).rest = s.rest.drop used.length := List.drop_drop.symm
  rw [moved, split, List.drop_left]

end Stream

theorem Derives.next {used : List Token} {v : Value} (derived : Derives used v) {s : Stream}
    {rest : List Token} (split : s.rest = used ++ rest) :
    s.next = .ok (v, s.advance used.length) := by
  have width := congrArg List.length split
  have present := List.length_pos_iff.mpr derived.ne_nil
  simp only [Stream.rest, List.length_drop, List.length_append] at width
  refine Stream.next_of_derives (by omega) ?_
  rwa [extract_of_drop_eq split]

theorem DerivesAll.readAll : DerivesAll used values → ∀ {s : Stream} {rest : List Token},
    s.rest = used ++ rest →
    s.readAll = (values ++ (s.advance used.length).readAll.1, (s.advance used.length).readAll.2)
  | .nil, s, rest, _ => rfl
  | .cons first others, s, rest, split => by
      rw [List.append_assoc] at split
      have later := others.readAll (Stream.rest_advance split)
      rw [Stream.readAll_of_ok (first.next split), later, Stream.advance_advance,
        List.length_append]
      rfl

theorem DerivesAll.readAll_ofTokens {tokens : List Token} {values : List Value}
    (derived : DerivesAll tokens values) :
    (Stream.ofTokens tokens).readAll.1 = values ∧ (Stream.ofTokens tokens).readAll.2.1 = none := by
  have split : (Stream.ofTokens tokens).rest = tokens ++ [] := (List.append_nil tokens).symm
  rw [derived.readAll split, Stream.readAll_of_nil (Stream.rest_advance split), List.append_nil]
  exact ⟨rfl, rfl⟩

/-- What is read from a stream are derivations, one after the other, and the cursor ends behind
them. -/
theorem Stream.readAll_advance (s : Stream) :
    ∃ used, DerivesAll used s.readAll.1 ∧ s.rest = used ++ s.readAll.2.2.rest ∧
      s.readAll.2.2 = s.advance used.length := by
  fun_induction readAll s with
  | case1 | case2 => exact ⟨[], .nil, rfl, rfl⟩
  | case3 s _ v t found values failure last all ih =>
      obtain ⟨used, derived, split⟩ := rest_of_next found
      cases found.symm.trans (derived.next split)
      rw [all] at ih
      obtain ⟨others, later, left, moved⟩ := ih
      refine ⟨used ++ others, .cons derived later, ?_, ?_⟩
      · rw [split, left, List.append_assoc]
      · rw [List.length_append, ← advance_advance]
        exact moved

theorem Stream.readAll_congr (s t : Stream) (same : s.rest = t.rest) :
    s.readAll.1 = t.readAll.1 ∧ s.readAll.2.1 = t.readAll.2.1 := by
  induction size : s.rest.length using Nat.strongRecOn generalizing s t with
  | _ n ih =>
      by_cases empty : s.rest = []
      · rw [readAll_of_nil empty, readAll_of_nil (same ▸ empty)]
        exact ⟨rfl, rfl⟩
      · cases found : s.next with
        | error e =>
            have failed := next_eq_error_iff.mp found
            rw [same, ← next_eq_error_iff] at failed
            rw [readAll_of_error empty found, readAll_of_error (same ▸ empty) failed]
            exact ⟨rfl, rfl⟩
        | ok result =>
            obtain ⟨used, derived, split⟩ := rest_of_next found
            have found' := derived.next (same ▸ split)
            have rest := rest_advance (same ▸ split)
            have shorter := length_rest_next_lt found
            obtain ⟨values, failure⟩ := ih _ (size ▸ shorter) _ _ rest.symm rfl
            rw [readAll_of_ok found, readAll_of_ok found', values]
            exact ⟨rfl, failure⟩

theorem Derives.alone {used : List Token} {v : Value} (derived : Derives used v) :
    DerivesAll used [v] := by
  have one := DerivesAll.cons derived .nil
  rwa [List.append_nil] at one

theorem Stream.readAll_ofTokens_append {used : List Token} {values : List Value}
    (derived : DerivesAll used values) (rest : List Token) :
    (ofTokens (used ++ rest)).readAll.1 = values ++ (ofTokens rest).readAll.1 ∧
      (ofTokens (used ++ rest)).readAll.2.1 = (ofTokens rest).readAll.2.1 := by
  have split : (ofTokens (used ++ rest)).rest = used ++ rest := rfl
  have left : ((ofTokens (used ++ rest)).advance used.length).rest = (ofTokens rest).rest :=
    rest_advance split
  obtain ⟨later, failure⟩ := readAll_congr _ _ left
  rw [derived.readAll split, later, failure]
  exact ⟨rfl, rfl⟩

end MiniLisp
