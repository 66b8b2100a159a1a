import MiniLisp.Proofs.Editor.Definitions
import MiniLisp.Proofs.Reading.Balance
import MiniLisp.Proofs.Session.Sequence

namespace MiniLisp

/-- A definition of the symbol stands in the value outside every abstraction, but is not the value
itself. -/
inductive Value.ExposesInside : Value → Symbol → Prop where
  | value (keyword : head.keyword? = some .definition) (inside : Exposes form x) :
      ExposesInside (.list [head, target, form]) x
  | operand (keyword : head.keyword? = some .conditional) (member : form ∈ forms)
      (inside : Exposes form x) : ExposesInside (.list (head :: forms)) x
  | part (plain : head.keyword? = none) (member : form ∈ head :: forms)
      (inside : Exposes form x) : ExposesInside (.list (head :: forms)) x

/-- The value is a definition of the symbol. -/
def Value.IsDefinitionOf (v : Value) (x : Symbol) : Prop :=
  ∃ rest, v = .list (.symbol Keyword.definition.symbol :: .symbol x :: rest)

theorem Keyword.eq_symbol_of_keyword? {head : Value} {k : Keyword}
    (keyword : head.keyword? = some k) : head = .symbol k.symbol := by
  cases head with
  | symbol x =>
      have name : k.name = x.name := Keyword.ofName?_eq_some_iff.mp keyword
      rw [symbol, name]
  | number | boolean | list | builtin | closure | foreign => contradiction

theorem Keyword.keyword?_symbol (k : Keyword) : (Value.symbol k.symbol).keyword? = some k :=
  Keyword.ofName?_name k

theorem Value.Exposes.defines_or_inside {v : Value} {x : Symbol} (exposed : v.Exposes x) :
    v.IsDefinitionOf x ∨ v.ExposesInside x := by
  cases exposed with
  | target keyword =>
      rw [Keyword.eq_symbol_of_keyword? keyword]
      exact .inl ⟨_, rfl⟩
  | value keyword inside => exact .inr (.value keyword inside)
  | operand keyword member inside => exact .inr (.operand keyword member inside)
  | part plain member inside => exact .inr (.part plain member inside)

section

variable {forms : List Value} {frame : FrameId} {s t : Store} {v : Value}

theorem Evaluates.definition_ok
    (evaluated : Evaluates (.list (.symbol Keyword.definition.symbol :: forms)) frame s (.ok v) t) :
    ∃ x form w u, forms = [.symbol x, form] ∧ Evaluates form frame s (.ok w) u ∧
      t = u.bind frame x w := by
  have keyword := Keyword.definition.keyword?_symbol
  cases evaluated with
  | definition _ value => exact ⟨_, _, _, _, rfl, value, rfl⟩
  | branch conditional | abstraction conditional | primitive conditional | call conditional =>
      rw [keyword] at conditional
      contradiction

theorem Evaluates.abstraction_ok
    (evaluated : Evaluates (.list (.symbol Keyword.abstraction.symbol :: forms)) frame s (.ok v) t) :
    ∃ params body, forms = [params, body] ∧ v = .closure params body frame := by
  have keyword := Keyword.abstraction.keyword?_symbol
  cases evaluated with
  | abstraction => exact ⟨_, _, rfl, rfl⟩
  | branch other | definition other | primitive other | call other =>
      rw [keyword] at other
      contradiction

end

/-- No value that is read after the last definition of a name defines it. -/
theorem Index.LastDefinition.split_values {trees : List Tree} {tree : Tree} {d : DefinedName}
    (last : LastDefinition trees tree d) :
    ∃ before after, trees.map Tree.value = before ++ tree.value :: after ∧
      ∀ later ∈ after, ¬ later.IsDefinitionOf ⟨d.name⟩ := by
  obtain ⟨before, after, rfl, _, others⟩ := last
  refine ⟨before.map Tree.value, after.map Tree.value, by simp, ?_⟩
  intro v member ⟨rest, defines⟩
  obtain ⟨later, inside, rfl⟩ := List.mem_map.mp member
  have defined := later.isSome_defined?_iff.mpr ⟨_, rest, defines, nofun⟩
  obtain ⟨e, found⟩ := Option.isSome_iff_exists.mp defined
  obtain ⟨operands, value, _⟩ := Tree.value_of_defined? found
  have same := value.symm.trans defines
  obtain ⟨_, same⟩ := List.cons.inj (Value.list.inj same)
  exact others later inside e found (Value.eq_name_of_ofAtom (List.cons.inj same).1)

namespace Session

variable {s t : Session} {name : String} {second v : Value} {operands : List Value}

/-- A definition that succeeds leaves the name bound to the value of its form. -/
theorem evaluate_definition_ok (rooted : s.HasRoot)
    (run : s.evaluate (.list (.symbol Keyword.definition.symbol :: .ofAtom name :: operands)) =
      (.ok v, t)) :
    ∃ form w u, Value.ofAtom name = .symbol ⟨name⟩ ∧ operands = [form] ∧
      Evaluates form root s.store (.ok w) u ∧ t.store.binding? root ⟨name⟩ = some w := by
  obtain ⟨x, form, w, u, same, value, bound⟩ := (evaluate_evaluates run).definition_ok
  obtain ⟨atom, rfl⟩ := List.cons.inj same
  cases Value.eq_name_of_ofAtom atom
  have present := Nat.lt_of_lt_of_le rooted (value.writes rooted).size_le
  refine ⟨form, w, u, atom, rfl, value, ?_⟩
  rw [bound, Store.binding?_bind present, if_pos ⟨rfl, rfl⟩]

theorem binding?_of_unexposed {forms : List Value} {x : Symbol} {outcome : Except Error Unit}
    (rooted : s.HasRoot) (run : s.evaluateForms forms = (outcome, t))
    (unexposed : ∀ form ∈ forms, ¬ form.Exposes x) :
    t.store.binding? root x = s.store.binding? root x := by
  have writes := evaluateForms_writes rooted forms
  rw [run] at writes
  apply writes.binding?_eq rooted
  rintro (⟨_, form, member, exposed⟩ | fresh)
  · exact unexposed form member exposed
  · exact Nat.not_lt_of_le fresh rooted

end Session

/-- After a text has been evaluated without failure the root binds every name that its index holds.
A name that is indexed as a function, and that no form defines inside of it, is bound to a closure,
with the parameters and the body of the last form that defines the name. -/
theorem index_sound (depth : Nat) (inputs : List Session.Input) (text : String) (t : Session)
    (succeeded : ((Session.start depth).after inputs).evaluatePrelude text = (.ok (), t)) :
    let forms := (Stream.ofSource text).readAll.1
    ∀ name d, (Index.ofText text).definitions.find? name = some d →
      (t.store.binding? Session.root ⟨name⟩).isSome ∧
      (d.kind = .function → (∀ form ∈ forms, ¬ form.ExposesInside ⟨name⟩) →
        ∃ before params body after,
          forms = before ++ .list [.symbol Keyword.definition.symbol, .symbol ⟨name⟩,
            .list [.symbol Keyword.abstraction.symbol, params, body]] :: after ∧
          (∀ later ∈ after, ¬ later.IsDefinitionOf ⟨name⟩) ∧
          t.store.binding? Session.root ⟨name⟩ = some (.closure params body Session.root)) := by
  intro forms name entry found
  have rooted := Session.hasRoot_after depth inputs
  obtain ⟨finished, run⟩ := Session.evaluatePrelude_eq_ok succeeded
  obtain ⟨trees, unique, values⟩ := exists_forest finished
  have forest := (unique trees).mpr rfl
  obtain ⟨tree, d, last, rfl, same⟩ := Index.lastDefinition_of_find? forest found
  obtain ⟨before, after, split, others⟩ := last.split_values
  obtain ⟨_, _, _, defined, _⟩ := last
  obtain ⟨operands, shape, kind⟩ := Tree.value_of_defined? defined
  rw [values, shape] at split
  rw [split] at run
  obtain ⟨u, v, w, earlier, here, later⟩ := Session.evaluateForms_eq_ok run
  have rooted := rooted.evaluateForms earlier
  obtain ⟨form, value, store, atom, rfl, evaluated, bound⟩ :=
    Session.evaluate_definition_ok rooted here
  rw [atom] at split
  have rooted := rooted.evaluate here
  have writes := Session.evaluateForms_writes rooted after
  rw [later] at writes
  refine ⟨writes.isSome_binding? (Option.isSome_of_eq_some bound), fun function unexposed => ?_⟩
  obtain ⟨items, others', same'⟩ := kind.mp (same.trans function)
  obtain ⟨rfl, rfl⟩ := List.cons.inj same'
  obtain ⟨params, body, rfl, rfl⟩ := evaluated.abstraction_ok
  refine ⟨before, params, body, after, split, others, ?_⟩
  refine (Session.binding?_of_unexposed rooted later fun form member exposed => ?_).trans bound
  have inside : form ∈ forms := by
    change form ∈ (Stream.ofSource text).readAll.1
    rw [split]
    exact List.mem_append_right before (List.mem_cons_of_mem _ member)
  exact exposed.defines_or_inside.elim (others form member) (unexposed form inside)

/-- The definition of a function. -/
theorem index_sound_function :
    let text := "(define f (lambda (x) x))"
    ∃ t, ((Session.start 20).after []).evaluatePrelude text = (.ok (), t) ∧
      ∃ d, (Index.ofText text).definitions.find? "f" = some d ∧ d.kind = .function ∧
        (∀ form ∈ (Stream.ofSource text).readAll.1, ¬ form.ExposesInside ⟨"f"⟩) ∧
        ∃ params body, t.store.binding? Session.root ⟨"f"⟩ =
          some (.closure params body Session.root) := by
  intro text
  have finishes : (((Session.start 20).after []).evaluatePrelude text).1.isOk := by
    decide +kernel
  have entry : (Index.ofText text).definitions.find? "f" =
      some { kind := .function, position := ⟨0, 8⟩ } := by
    decide +kernel
  have define : Value.ofAtom "define" = _ := Keyword.definition.ofAtom_eq_symbol_iff.mpr rfl
  have lambda : Value.ofAtom "lambda" = _ := Keyword.abstraction.ofAtom_eq_symbol_iff.mpr rfl
  have tokens : Token.tokenize text = [.opening, .atom "define", .atom "f", .opening,
      .atom "lambda", .opening, .atom "x", .closing, .atom "x", .closing, .closing] := by
    decide +kernel
  have derived : DerivesAll (Token.tokenize text)
      [.list [.symbol Keyword.definition.symbol, .ofAtom "f",
        .list [.symbol Keyword.abstraction.symbol, .list [.ofAtom "x"], .ofAtom "x"]]] := by
    have params : Derives [.opening, .atom "x", .closing] (.list [.ofAtom "x"]) :=
      .list (.cons .atom .nil)
    rw [tokens, ← define, ← lambda]
    exact .cons (.list (.cons .atom (.cons .atom (.cons (.list
      (.cons .atom (.cons params (.cons .atom .nil)))) .nil)))) .nil
  have unexposed : ∀ form ∈ (Stream.ofSource text).readAll.1, ¬ form.ExposesInside ⟨"f"⟩ := by
    rw [Stream.ofSource, derived.readAll_ofTokens.1]
    intro form member inside
    cases List.mem_singleton.mp member
    have nothing : ∀ x, ¬ (Value.list [.symbol Keyword.abstraction.symbol, .list [.ofAtom "x"],
        .ofAtom "x"]).Exposes x := by
      intro x exposed
      cases exposed with
      | value other | operand other | part other =>
          rw [Keyword.keyword?_symbol] at other
          contradiction
    cases inside with
    | value _ deeper => exact nothing _ deeper
    | operand other | part other =>
        rw [Keyword.keyword?_symbol] at other
        contradiction
  rcases run : ((Session.start 20).after []).evaluatePrelude text with ⟨outcome, t⟩
  rw [run] at finishes
  obtain ⟨_, rfl⟩ := exists_ok_of_isOk finishes
  have sound := index_sound 20 [] text t run "f" _ entry
  obtain ⟨_, params, body, _, _, _, bound⟩ := sound.2 rfl unexposed
  exact ⟨t, rfl, _, entry, rfl, unexposed, params, body, bound⟩

end MiniLisp
