import MiniLisp.Evaluation

namespace MiniLisp

namespace Value

theorem symbol?_eq_some {v : Value} {x : Symbol} (found : v.symbol? = some x) : v = .symbol x := by
  cases v with
  | symbol y =>
      cases found
      rfl
  | number | boolean | list | builtin | closure | foreign => contradiction

theorem eq_map_of_mapM_symbol? {items : List Value} {formals : List Symbol}
    (found : items.mapM symbol? = some formals) : items = formals.map .symbol := by
  induction items generalizing formals with
  | nil =>
      cases found
      rfl
  | cons item rest ih =>
      rw [List.mapM_cons] at found
      obtain ⟨x, first, found⟩ := Option.bind_eq_some_iff.mp found
      obtain ⟨others, later, found⟩ := Option.bind_eq_some_iff.mp found
      cases found
      rw [symbol?_eq_some first, ih later, List.map_cons]

theorem eq_list_of_formals? {params : Value} {formals : List Symbol}
    (found : params.formals? = some formals) : params = .list (formals.map .symbol) := by
  cases params with
  | list items => exact congrArg Value.list (eq_map_of_mapM_symbol? found)
  | number | boolean | symbol | builtin | closure | foreign => contradiction

theorem formals?_symbols (formals : List Symbol) :
    (Value.list (formals.map .symbol)).formals? = some formals := by
  change (formals.map Value.symbol).mapM Value.symbol? = some formals
  induction formals with
  | nil => rfl
  | cons x rest ih => rw [List.map_cons, List.mapM_cons, ih]; rfl

theorem formals?_eq_some_iff {params : Value} {formals : List Symbol} :
    params.formals? = some formals ↔ params = .list (formals.map .symbol) := by
  constructor
  · exact eq_list_of_formals?
  · rintro rfl
    exact formals?_symbols formals

theorem formals?_eq_none_iff {params : Value} :
    params.formals? = none ↔ ∀ formals : List Symbol, params ≠ .list (formals.map .symbol) := by
  simp only [Option.eq_none_iff_forall_ne_some, ne_eq, formals?_eq_some_iff]

theorem checkArity_eq_ok {params : Value} {provided : Int}
    (accepted : params.checkArity provided = .ok ()) :
    ∃ formals, params.formals? = some formals ∧ formals.length = provided := by
  unfold Value.checkArity at accepted
  split at accepted
  · contradiction
  · rename_i formals found
    split at accepted
    · rename_i arity
      exact ⟨formals, found, arity⟩
    · contradiction

theorem checkArity_of_not_symbols {params : Value}
    (other : ∀ formals : List Symbol, params ≠ .list (formals.map .symbol)) (provided : Int) :
    params.checkArity provided = .error .badParameters := by
  rw [checkArity, formals?_eq_none_iff.mpr other]

theorem checkArity_symbols (formals : List Symbol) (provided : Int) :
    (Value.list (formals.map .symbol)).checkArity provided =
      if formals.length = provided then .ok ()
      else .error (.argumentCount formals.length provided) := by
  rw [checkArity, formals?_symbols]

end Value

/-- What is refused by the number of the arguments is refused with them, for the same reason. -/
theorem Store.openCall_eq_error_iff {s : Store} {outer : FrameId} {params : Value}
    {args : List Value} {e : Error} :
    s.openCall outer params args = (.error e, s) ↔
      params.checkArity (args.length : Nat) = .error e := by
  unfold openCall Value.checkArity
  cases params.formals? with
  | none => simp
  | some formals =>
      have number : (formals.length : Int) = args.length ↔ formals.length = args.length := by omega
      by_cases arity : formals.length = args.length <;> simp [arity, number]

end MiniLisp
