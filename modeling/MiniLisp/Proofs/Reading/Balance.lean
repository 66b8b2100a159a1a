import MiniLisp.Proofs.Reading.Stream
import MiniLisp.Proofs.Token.Placed

namespace MiniLisp

open Text

theorem DerivesAll.append : DerivesAll tokens items → DerivesAll others values →
    DerivesAll (tokens ++ others) (items ++ values)
  | .nil, after => after
  | .cons first rest, after => by
      rw [List.append_assoc]
      exact .cons first (rest.append after)

theorem exists_derivesAll_atoms {tokens : List Token}
    (atoms : ∀ t ∈ tokens, ∃ name, t = .atom name) : ∃ items, DerivesAll tokens items := by
  induction tokens with
  | nil => exact ⟨[], .nil⟩
  | cons t tokens ih =>
      obtain ⟨⟨name, rfl⟩, others⟩ := List.forall_mem_cons.mp atoms
      obtain ⟨items, derived⟩ := ih others
      exact ⟨_, .cons .atom derived⟩

theorem Text.Nested.derives {text : List Char} (nested : Nested text) :
    ∃ items, DerivesAll (Token.split text) items := by
  induction nested with
  | plain plain => exact exists_derivesAll_atoms (Token.split_plain plain)
  | group plain _ _ inside outside =>
      obtain ⟨first, before⟩ := exists_derivesAll_atoms (Token.split_plain plain)
      obtain ⟨items, inside⟩ := inside
      obtain ⟨rest, outside⟩ := outside
      rw [Token.split_append (.inl rfl), Token.split_append (.inr rfl)]
      have all := before.append (.cons (.list inside) outside)
      rw [List.append_assoc] at all
      exact ⟨_, all⟩

/-- An open list stays open. -/
theorem readWithin_steady {text : List Char} (steady : Steady text) (items : List Value)
    (stack : List (List Value)) :
    Value.readWithin (items :: stack) (Token.split text) = .error .unbalanced := by
  revert items stack
  refine Steady.induct steady (fun text balanced items stack => ?_) ?_
  · obtain ⟨values, derived⟩ := balanced.nested.derives
    have read := derived.readWithin_append items stack []
    rwa [List.append_nil] at read
  · intro before after balanced _ later items stack
    obtain ⟨values, derived⟩ := balanced.nested.derives
    rw [Token.split_append (.inl rfl), derived.readWithin_append]
    exact (readWithin_opening _ _).trans (later [] _)

section

variable {text before after : List Char}

/-- Reading comes to the end of a balanced text. -/
theorem Text.Balanced.readAll_append (balanced : Balanced before) (rest : List Token) :
    let s := Stream.ofTokens (Token.split before ++ rest)
    let t := s.advance (Token.split before).length
    t.rest = rest ∧ ∃ items, s.readAll = (items ++ t.readAll.1, t.readAll.2) := by
  intro s t
  obtain ⟨items, derived⟩ := balanced.nested.derives
  exact ⟨Stream.rest_advance rfl, items, derived.readAll rfl⟩

theorem Text.Balanced.readAll (balanced : Balanced text) :
    (Stream.ofTokens (Token.split text)).readAll.2.1 = none := by
  obtain ⟨rest, items, all⟩ := balanced.readAll_append []
  rw [List.append_nil] at rest all
  rw [all, Stream.readAll_of_nil rest]

/-- Reading stops where the balanced beginning ends, if it cannot go on from there. -/
theorem Text.Balanced.readAll_error (balanced : Balanced before) {token : Token}
    {rest : List Token} {reason : SyntaxError}
    (failed : Value.read (token :: rest) = .error reason) :
    let last := (Stream.ofTokens (Token.split before ++ token :: rest)).readAll.2
    last.1 = some reason ∧ last.2.cursor = (Token.split before).length := by
  obtain ⟨left, items, all⟩ := balanced.readAll_append (token :: rest)
  rw [← left, ← Stream.next_eq_error_iff] at failed
  have more := left.trans_ne (List.cons_ne_nil token rest)
  rw [all, Stream.readAll_of_error more failed]
  exact ⟨rfl, Nat.zero_add _⟩

theorem readAll_of_stray (balanced : Balanced before) (after : List Char) :
    let last := (Stream.ofTokens (Token.split (before ++ ')' :: after))).readAll.2
    last.1 = some .unexpectedClosing ∧ last.2.cursor = (Token.split before).length := by
  rw [Token.split_append (.inr rfl)]
  exact balanced.readAll_error rfl

theorem readAll_of_unclosed (balanced : Balanced before) (steady : Steady after) :
    (Stream.ofTokens (Token.split (before ++ '(' :: after))).readAll.2.1 = some .unbalanced := by
  have failed : Value.read (.opening :: Token.split after) = .error .unbalanced :=
    (readWithin_opening _ _).trans (readWithin_steady steady [] [])
  rw [Token.split_append (.inl rfl)]
  exact (balanced.readAll_error failed).1

/-- Reading comes to the end of no other text. -/
theorem balanced_of_readAll (finished : (Stream.ofTokens (Token.split text)).readAll.2.1 = none) :
    Balanced text := by
  by_cases steady : Steady text
  · refine steady.first_unclosed.resolve_right ?_
    rintro ⟨before, after, rfl, balanced, later⟩
    cases finished.symm.trans (readAll_of_unclosed balanced later)
  · obtain ⟨before, after, rfl, balanced⟩ := exists_stray steady
    cases finished.symm.trans (readAll_of_stray balanced after).1

end

end MiniLisp
