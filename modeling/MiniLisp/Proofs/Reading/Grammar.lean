import MiniLisp.Token.Stream

/-! # The grammar that is read

A value is written as an atom or as the values of a list between parentheses. The reader keeps the
lists that are still open on a stack instead. `Opened` relates a stack to the tokens that opened it,
and with it the reader accepts exactly what the grammar derives: the shortest beginning of the
tokens that is a derivation, which is also the only one.
-/

namespace MiniLisp

open Value

mutual

/-- The tokens are a derivation of the value. -/
inductive Derives : List Token → Value → Prop where
  | atom : Derives [.atom text] (ofAtom text)
  | list (inside : DerivesAll tokens items) :
      Derives (.opening :: tokens ++ [.closing]) (.list items)

/-- The tokens are derivations of the values, one after the other. -/
inductive DerivesAll : List Token → List Value → Prop where
  | nil : DerivesAll [] []
  | cons (first : Derives tokens v) (rest : DerivesAll others items) :
      DerivesAll (tokens ++ others) (v :: items)

end

theorem Derives.ne_nil (derived : Derives tokens v) : tokens ≠ [] := by
  cases derived <;> simp

theorem DerivesAll.concat (one : Derives others v) :
    DerivesAll tokens items → DerivesAll (tokens ++ others) (items ++ [v])
  | .nil => by simpa using DerivesAll.cons one .nil
  | .cons first rest => by
      rw [List.append_assoc]
      exact .cons first (rest.concat one)

/-- Reading goes on after a value that is complete: it is the result, or belongs to the innermost
of the open lists. -/
def Value.completed : List (List Value) → Value → List Token → Except SyntaxError (Value × List Token)
  | [], v, rest => .ok (v, rest)
  | items :: stack, v, rest => readWithin ((v :: items) :: stack) rest

theorem readWithin_closing (items : List Value) (stack : List (List Value)) (rest : List Token) :
    readWithin (items :: stack) (.closing :: rest) = completed stack (.list items.reverse) rest := by
  cases stack <;> rfl

theorem readWithin_atom (stack : List (List Value)) (text : String) (rest : List Token) :
    readWithin stack (.atom text :: rest) = completed stack (ofAtom text) rest := by
  cases stack <;> rfl

theorem readWithin_opening (stack : List (List Value)) (rest : List Token) :
    readWithin stack (.opening :: rest) = readWithin ([] :: stack) rest := by
  cases stack <;> rfl

mutual

theorem Derives.readWithin_append : Derives tokens v → ∀ stack rest,
    readWithin stack (tokens ++ rest) = completed stack v rest
  | .atom, stack, rest => readWithin_atom stack _ rest
  | .list inside, stack, rest => by
      rename_i tokens items
      calc readWithin stack ((.opening :: tokens ++ [.closing]) ++ rest)
          = readWithin ([] :: stack) (tokens ++ .closing :: rest) := by
            rw [List.append_assoc, List.cons_append, readWithin_opening]
            rfl
        _ = readWithin ((items.reverse ++ []) :: stack) (.closing :: rest) :=
            inside.readWithin_append [] stack _
        _ = completed stack (.list items) rest := by
            rw [readWithin_closing, List.append_nil, List.reverse_reverse]

theorem DerivesAll.readWithin_append : DerivesAll tokens values → ∀ items stack rest,
    readWithin (items :: stack) (tokens ++ rest) =
      readWithin ((values.reverse ++ items) :: stack) rest
  | .nil, items, stack, rest => rfl
  | .cons first others, items, stack, rest => by
      rw [List.append_assoc, first.readWithin_append, completed, others.readWithin_append,
        List.reverse_cons, List.append_assoc, List.singleton_append]

end

/-- The tokens have opened the lists of the stack and derived the elements that these have. -/
inductive Opened : List (List Value) → List Token → Prop where
  | nothing : Opened [] []
  | list (outside : Opened stack before) (inside : DerivesAll tokens items.reverse) :
      Opened (items :: stack) (before ++ .opening :: tokens)

theorem Opened.element (opened : Opened (items :: stack) before) (element : Derives tokens v) :
    Opened ((v :: items) :: stack) (before ++ tokens) := by
  cases opened with
  | list outside inside =>
      rw [List.append_assoc, List.cons_append]
      refine .list outside ?_
      rw [List.reverse_cons]
      exact inside.concat element

/-- What reading finds from some tokens on completes what was opened before them. -/
def Sound (tokens : List Token) : Prop :=
  ∀ {stack before v rest}, Opened stack before → readWithin stack tokens = .ok (v, rest) →
    ∃ used, tokens = used ++ rest ∧ Derives (before ++ used) v

theorem Sound.completed (sound : Sound tokens) (opened : Opened stack before)
    (derived : Derives part element) (found : completed stack element tokens = .ok (v, rest)) :
    ∃ used, tokens = used ++ rest ∧ Derives (before ++ (part ++ used)) v := by
  cases stack with
  | nil =>
      cases opened
      cases found
      exact ⟨[], rfl, by simpa using derived⟩
  | cons items stack =>
      obtain ⟨used, rfl, derivation⟩ := sound (opened.element derived) found
      exact ⟨used, rfl, by simpa using derivation⟩

theorem readWithin_sound (tokens : List Token) : Sound tokens := by
  -- On the tokens that are left, for every stack: what is read goes over into `before`.
  induction tokens with
  | nil =>
      intro stack before v rest _ found
      cases stack <;> contradiction
  | cons token tokens sound =>
      intro stack before v rest opened found
      cases token with
      | opening =>
          rw [readWithin_opening] at found
          obtain ⟨used, rfl, derivation⟩ := sound (.list opened .nil) found
          exact ⟨.opening :: used, rfl, by simpa using derivation⟩
      | closing =>
          cases opened with
          | nothing => contradiction
          | list outside inside =>
              rw [readWithin_closing] at found
              obtain ⟨used, rfl, derivation⟩ := sound.completed outside (.list inside) found
              exact ⟨.closing :: used, rfl, by simpa using derivation⟩
      | atom text =>
          rw [readWithin_atom] at found
          obtain ⟨used, rfl, derivation⟩ := sound.completed opened .atom found
          exact ⟨.atom text :: used, rfl, derivation⟩

/-- The reader accepts a derivation followed by anything. -/
theorem readWithin_nil_eq_ok_iff {tokens rest : List Token} {v : Value} :
    readWithin [] tokens = .ok (v, rest) ↔ ∃ used, tokens = used ++ rest ∧ Derives used v := by
  constructor
  · exact readWithin_sound tokens .nothing
  · rintro ⟨used, rfl, derived⟩
    exact derived.readWithin_append [] rest

theorem read_eq_ok_iff {tokens rest : List Token} {v : Value} :
    Value.read tokens = .ok (v, rest) ↔ ∃ used, tokens = used ++ rest ∧ Derives used v := by
  rw [← readWithin_nil_eq_ok_iff]
  cases tokens <;> simp [Value.read, readWithin]

theorem readWithin_cons_error {items : List Value} {stack : List (List Value)}
    {tokens : List Token} {e : SyntaxError} (failed : readWithin (items :: stack) tokens = .error e) :
    e = .unbalanced := by
  induction tokens generalizing items stack with
  | nil =>
      cases failed
      rfl
  | cons token tokens ih =>
      cases token with
      | opening => exact ih failed
      | atom => exact ih failed
      | closing =>
          cases stack with
          | nil => contradiction
          | cons outer stack => exact ih failed

theorem read_eq_missing_iff {tokens : List Token} :
    Value.read tokens = .error .missingToken ↔ tokens = [] := by
  constructor
  · intro failed
    cases tokens with
    | nil => rfl
    | cons token tokens =>
        cases token with
        | opening => cases readWithin_cons_error failed
        | closing | atom => simp [Value.read, readWithin] at failed
  · rintro rfl
    rfl

theorem read_eq_unexpected_iff {tokens : List Token} :
    Value.read tokens = .error .unexpectedClosing ↔ tokens.head? = some .closing := by
  constructor
  · intro failed
    cases tokens with
    | nil => simp [Value.read] at failed
    | cons token tokens =>
        cases token with
        | opening => cases readWithin_cons_error failed
        | closing => rfl
        | atom => contradiction
  · intro first
    obtain ⟨rest, rfl⟩ := List.head?_eq_some_iff.mp first
    rfl

theorem read_eq_unbalanced_iff {tokens : List Token} :
    Value.read tokens = .error .unbalanced ↔
      tokens.head? = some .opening ∧ ∀ used rest v, tokens = used ++ rest → ¬ Derives used v := by
  constructor
  · intro failed
    refine ⟨?_, fun used rest v split derived => ?_⟩
    · cases tokens with
      | nil => simp [Value.read] at failed
      | cons token tokens =>
          cases token with
          | opening => rfl
          | closing | atom => simp [Value.read, readWithin] at failed
    · have accepted := read_eq_ok_iff.mpr ⟨used, split, derived⟩
      rw [failed] at accepted
      contradiction
  · rintro ⟨first, incomplete⟩
    obtain ⟨rest, rfl⟩ := List.head?_eq_some_iff.mp first
    cases found : Value.read (.opening :: rest) with
    | ok result =>
        obtain ⟨used, split, derived⟩ := read_eq_ok_iff.mp found
        exact absurd derived (incomplete used _ _ split)
    | error e =>
        have unbalanced : e = .unbalanced := readWithin_cons_error found
        rw [unbalanced]

namespace Stream

theorem next_eq_error_iff {s : Stream} {e : SyntaxError} :
    s.next = .error e ↔ Value.read s.rest = .error e := by
  unfold next
  cases Value.read s.rest <;> simp

/-- Reading moves the cursor over one derivation. -/
theorem next_eq_ok_iff {s t : Stream} {v : Value} :
    s.next = .ok (v, t) ↔ t.tokens = s.tokens ∧ t.cursor ≤ s.tokens.length ∧
      Derives (s.tokens.extract s.cursor t.cursor) v := by
  obtain ⟨tokens, cursor⟩ := s
  obtain ⟨tokens', cursor'⟩ := t
  unfold next
  constructor
  · intro found
    split at found
    · contradiction
    · rename_i v rest accepted
      cases found
      obtain ⟨used, split, derived⟩ := read_eq_ok_iff.mp accepted
      have length := congrArg List.length split
      have present := List.length_pos_iff.mpr derived.ne_nil
      simp only [Stream.rest, List.length_drop, List.length_append] at split length
      refine ⟨rfl, Nat.sub_le _ _, ?_⟩
      have width : tokens.length - rest.length - cursor = used.length := by omega
      rwa [List.extract_eq_take_drop, width, split, List.take_left]
  · rintro ⟨rfl, within, derived⟩
    have ahead : cursor < cursor' := by
      apply Classical.byContradiction
      intro behind
      have empty : cursor' - cursor = 0 := by omega
      exact derived.ne_nil (by simp [List.extract_eq_take_drop, empty])
    have accepted : Value.read (tokens'.drop cursor) = .ok (v, tokens'.drop cursor') := by
      refine read_eq_ok_iff.mpr ⟨_, ?_, derived⟩
      have after : tokens'.drop cursor' = (tokens'.drop cursor).drop (cursor' - cursor) := by
        rw [List.drop_drop, Nat.add_sub_cancel' (Nat.le_of_lt ahead)]
      rw [after, List.extract_eq_take_drop, List.take_append_drop]
    have position : tokens'.length - (tokens'.drop cursor').length = cursor' := by
      rw [List.length_drop]
      exact Nat.sub_sub_self within
    simp only [Stream.rest, accepted, position]

theorem next_of_derives {tokens : List Token} {p q : Nat} {v : Value} (within : q ≤ tokens.length)
    (derived : Derives (tokens.extract p q) v) :
    next { tokens, cursor := p } = .ok (v, { tokens, cursor := q }) :=
  next_eq_ok_iff.mpr ⟨rfl, within, derived⟩

end Stream

theorem extract_append_drop (tokens : List Token) (p q : Nat) :
    tokens.extract p q ++ (tokens.drop p).drop (q - p) = tokens.drop p := by
  rw [List.extract_eq_take_drop, List.take_append_drop]

theorem extract_of_drop_eq {tokens used rest : List Token} {p : Nat}
    (split : tokens.drop p = used ++ rest) : tokens.extract p (p + used.length) = used := by
  rw [List.extract_eq_take_drop, Nat.add_sub_cancel_left, split, List.take_left]

theorem SyntaxError.message_inj {e f : SyntaxError} : e.message = f.message ↔ e = f := by
  cases e <;> cases f <;> decide

theorem SyntaxError.mapError_message_eq_iff {α : Type} {result : Except SyntaxError α}
    {e : SyntaxError} : result.mapError message = .error e.message ↔ result = .error e := by
  cases result with
  | ok a => exact iff_of_false nofun nofun
  | error f =>
      change (Except.error f.message : Except String α) = _ ↔ _
      rw [Except.error.injEq, Except.error.injEq, message_inj]

/-- At every cursor, reading either finds the one derivation that begins there, whatever stands
before and after it, or fails with the message that the tokens at the cursor call for. -/
theorem next_iff_derives (tokens : List Token) (position : Nat) :
    let s : Stream := { tokens, cursor := position }
    let result := s.next.mapError SyntaxError.message
    (∀ v t, s.next = .ok (v, t) ↔ t.tokens = tokens ∧ t.cursor ≤ tokens.length ∧
      Derives (tokens.extract position t.cursor) v) ∧
    (∀ p q v w, p ≤ tokens.length → q ≤ tokens.length → Derives (tokens.extract position p) v →
      Derives (tokens.extract position q) w → p = q ∧ v = w) ∧
    (result = .error "missing token" ↔ tokens.length ≤ position) ∧
    (result = .error "unexpected closing parenthesis" ↔ tokens[position]? = some .closing) ∧
    (result = .error "unbalanced parentheses" ↔ tokens[position]? = some .opening ∧
      ∀ p v, ¬ Derives (tokens.extract position p) v) ∧
    ((∃ v t, s.next = .ok (v, t)) ∨ result = .error "missing token" ∨
      result = .error "unexpected closing parenthesis" ∨
      result = .error "unbalanced parentheses") ∧
    ∀ v t before after, s.next = .ok (v, t) →
      let moved := before ++ tokens.extract position t.cursor ++ after
      Stream.next { tokens := moved, cursor := before.length } =
        .ok (v, { tokens := moved, cursor := before.length + (t.cursor - position) }) := by
  intro s result
  have fails (e : SyntaxError) : result = .error e.message ↔ Value.read s.rest = .error e :=
    SyntaxError.mapError_message_eq_iff.trans Stream.next_eq_error_iff
  refine ⟨fun v t => Stream.next_eq_ok_iff, ?_, ?_, ?_, ?_, ?_, ?_⟩
  · intro p q v w pWithin qWithin first second
    have found := Stream.next_of_derives pWithin first
    rw [Stream.next_of_derives qWithin second] at found
    cases found
    exact ⟨rfl, rfl⟩
  · exact (fails .missingToken).trans (read_eq_missing_iff.trans List.drop_eq_nil_iff)
  · rw [← List.head?_drop]
    exact (fails .unexpectedClosing).trans read_eq_unexpected_iff
  · rw [← List.head?_drop]
    refine (fails .unbalanced).trans (read_eq_unbalanced_iff.trans ?_)
    refine and_congr_right fun _ => ⟨fun incomplete p v => ?_, fun incomplete used rest v split => ?_⟩
    · exact incomplete _ _ v (extract_append_drop tokens position p).symm
    · rw [← extract_of_drop_eq split]
      exact incomplete _ v
  · cases found : s.next with
    | ok result => exact .inl ⟨result.1, result.2, rfl⟩
    | error e =>
        have failed := SyntaxError.mapError_message_eq_iff.mpr found
        cases e with
        | missingToken => exact .inr (.inl failed)
        | unexpectedClosing => exact .inr (.inr (.inl failed))
        | unbalanced => exact .inr (.inr (.inr failed))
  · intro v t before after found moved
    obtain ⟨_, within, derived⟩ := Stream.next_eq_ok_iff.mp found
    have width : (tokens.extract position t.cursor).length = t.cursor - position := by
      rw [List.extract_eq_take_drop, List.length_take, List.length_drop]
      exact Nat.min_eq_left (Nat.sub_le_sub_right within position)
    have split : moved.drop before.length = tokens.extract position t.cursor ++ after := by
      simp [moved]
    rw [← width]
    apply Stream.next_of_derives
    · simp [moved]
    · rwa [extract_of_drop_eq split]

/-- A list that is read between two parentheses that are none of it. -/
theorem next_iff_derives_list :
    Derives ([.closing, .opening, .atom "a", .closing, .opening].extract 1 4)
      (.list [ofAtom "a"]) ∧
    Stream.next { tokens := [.closing, .opening, .atom "a", .closing, .opening], cursor := 1 } =
      .ok (.list [ofAtom "a"],
        { tokens := [.closing, .opening, .atom "a", .closing, .opening], cursor := 4 }) ∧
    Stream.next { tokens := [.opening, .atom "a", .closing, .atom "b"], cursor := 0 } =
      .ok (.list [ofAtom "a"],
        { tokens := [.opening, .atom "a", .closing, .atom "b"], cursor := 3 }) := by
  have derived : Derives ([.closing, .opening, .atom "a", .closing, .opening].extract 1 4)
      (.list [ofAtom "a"]) := .list (.cons .atom .nil)
  obtain ⟨accepted, _, _, _, _, _, moved⟩ :=
    next_iff_derives [.closing, .opening, .atom "a", .closing, .opening] 1
  have found := (accepted (.list [ofAtom "a"]) ⟨_, 4⟩).mpr ⟨rfl, by decide, derived⟩
  exact ⟨derived, found, moved _ _ [] [.atom "b"] found⟩

end MiniLisp
