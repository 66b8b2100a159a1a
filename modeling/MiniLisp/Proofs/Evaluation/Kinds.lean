import MiniLisp.Proofs.Evaluation.Invariant
import MiniLisp.Proofs.Reading.Source

namespace MiniLisp

/-- An atom or a function, whose symbols can be written and whose code can be read. -/
inductive Value.IsResult : Value → Prop where
  | number : IsResult (.number n)
  | boolean : IsResult (.boolean b)
  | symbol (spellable : x.Spellable) : IsResult (.symbol x)
  | builtin : IsResult (.builtin b)
  | closure (params : formals.Readable) (body : code.Readable) :
      IsResult (.closure formals code frame)

/-- The errors that source text leads to. -/
inductive Error.FromSource : Error → Prop where
  | unreadable : FromSource (.unreadable reason)
  | badTarget (readable : target.Readable) : FromSource (.badTarget target)
  | unbound (spellable : x.Spellable) : FromSource (.unbound x)
  | operandCount : FromSource (.operandCount k got)
  | argumentCount : FromSource (.argumentCount expected got)
  | tooFewArguments : FromSource (.tooFewArguments b)
  | badParameters : FromSource .badParameters
  | notNumber (result : v.IsResult) : FromSource (.notNumber b v)
  | notBoolean (result : v.IsResult) : FromSource (.notBoolean v)
  | notFunction (result : v.IsResult) : FromSource (.notFunction v)
  | emptyList : FromSource .emptyList
  | divisionByZero : FromSource .divisionByZero
  | tooDeep : FromSource .tooDeep

/-- The outcome is a value with the property or an error that source text leads to. -/
def Expected {α : Type} (P : α → Prop) : Except Error α → Prop
  | .ok a => P a
  | .error e => e.FromSource

namespace Expected

variable {α β : Type} {P : α → Prop} {Q : β → Prop} {outcome : Except Error α}

theorem map {f : α → β} (expected : Expected P outcome) (image : ∀ a, P a → Q (f a)) :
    Expected Q (outcome.map f) := by
  cases outcome with
  | error e => exact expected
  | ok a => exact image a expected

theorem bind {f : α → Except Error β} (expected : Expected P outcome)
    (next : ∀ a, P a → Expected Q (f a)) : Expected Q (outcome.bind f) := by
  cases outcome with
  | error e => exact expected
  | ok a => exact next a expected

end Expected

/-- The frames bind symbols that can be written to results. -/
def Store.Clean (s : Store) : Prop :=
  s.Binds fun x v => x.Spellable ∧ v.IsResult

theorem Value.IsAtom.isResult {v : Value} (atom : v.IsAtom) : v.IsResult := by
  cases atom <;> constructor

theorem Value.IsResult.not_list {v : Value} (result : v.IsResult) (items : List Value) :
    v ≠ .list items := by
  cases result <;> exact Value.noConfusion

theorem Value.IsResult.nesting_eq_zero {v : Value} (result : v.IsResult) : v.nesting = 0 := by
  cases result <;> rw [Value.nesting]

theorem Error.FromSource.ne_bareClosure {e : Error} (reached : e.FromSource) :
    e ≠ .bareClosure := by
  cases reached <;> exact Error.noConfusion

theorem Error.FromSource.ne_unevaluable {e : Error} (reached : e.FromSource) (v : Foreign) :
    e ≠ .unevaluable v := by
  cases reached <;> exact Error.noConfusion

namespace Value

theorem Readable.of_mem {items : List Value} {v : Value} (readable : (Value.list items).Readable)
    (member : v ∈ items) : v.Readable := by
  cases readable with
  | list inside => exact inside v member

theorem Readable.spellable {x : Symbol} (readable : (Value.symbol x).Readable) : x.Spellable := by
  cases readable with
  | symbol spellable => exact spellable

theorem checkArity_eq_error {params : Value} {provided : Int} {e : Error}
    (refused : params.checkArity provided = .error e) : e.FromSource := by
  unfold checkArity at refused
  split at refused
  · cases refused
    exact .badParameters
  · split at refused
    · contradiction
    · cases refused
      exact .argumentCount

end Value

namespace Builtin

theorem numbers_expected (b : Builtin) {args : List Value} (results : ∀ v ∈ args, v.IsResult) :
    Expected (fun _ => True) (b.numbers args) := by
  induction args with
  | nil => exact trivial
  | cons v rest ih =>
      have others := ih fun w member => results w (List.mem_cons_of_mem v member)
      unfold numbers
      split
      · contradiction
      · rename_i same
        cases same
        exact others.map fun _ _ => trivial
      · rename_i same
        cases same
        exact .notNumber (results v List.mem_cons_self)

theorem divideBy_expected (x y : Float) : Expected (fun _ => True) (divideBy x y) := by
  unfold divideBy
  split
  · exact .divisionByZero
  · exact trivial

theorem quotient_expected (x : Float) (ys : List Float) :
    Expected (fun _ => True) (quotient x ys) := by
  suffices folded : ∀ x, Expected (fun _ => True) (ys.foldlM divideBy x) by
    cases ys with
    | nil => exact divideBy_expected 1.0 x
    | cons => exact folded x
  induction ys with
  | nil => exact fun _ => trivial
  | cons y rest ih =>
      intro x
      rw [List.foldlM_cons]
      exact (divideBy_expected x y).bind fun q _ => ih q

theorem compute_expected (b : Builtin) (xs : List Float) :
    Expected Value.IsResult (b.compute xs) := by
  unfold compute
  split
  · exact .number
  · exact .number
  · exact .number
  · exact (quotient_expected _ _).map fun _ _ => .number
  · split
    · exact .boolean
    · exact .tooFewArguments

theorem call_expected (b : Builtin) {args : List Value} (results : ∀ v ∈ args, v.IsResult) :
    Expected Value.IsResult (b.call args) :=
  (b.numbers_expected results).bind fun xs _ => b.compute_expected xs

end Builtin

section

variable {expr : Value} {e : Error}

theorem Refused.fromSource (refused : Refused expr e) (readable : expr.Readable) :
    e.FromSource := by
  cases refused with
  | tooDeep => exact .tooDeep
  | closure | foreign => contradiction
  | empty => exact .emptyList
  | operandCount => exact .operandCount
  | target => exact .badTarget (readable.of_mem (by simp))

theorem Inapplicable.fromSource {function : Value} {count : Nat}
    (inapplicable : Inapplicable function count e) (result : function.IsResult) :
    e.FromSource := by
  cases inapplicable with
  | tooDeep => exact .tooDeep
  | notFunction => exact .notFunction result
  | arity wrong => exact Value.checkArity_eq_error wrong

end

/-- What evaluation makes of source text. -/
def sourceDiscipline : Discipline where
  code := Value.Readable
  name := Symbol.Spellable
  result := Value.IsResult
  error := Error.FromSource
  item := Value.Readable.of_mem
  spelled := Value.Readable.spellable
  atom := Value.IsAtom.isResult
  symbol := .symbol
  closure := .closure
  opened result := by
    cases result with
    | closure params body => exact ⟨params, body⟩
  tooDeep := .tooDeep
  unbound := .unbound
  refused := Refused.fromSource
  inapplicable := Inapplicable.fromSource
  notBoolean := .notBoolean
  called {_ b _} results called := by
    have expected := b.call_expected results
    rwa [called] at expected

/-- Evaluation of what was read keeps the frames clean, also when it fails. -/
theorem Evaluates.kinds {expr : Value} {frame : FrameId} {s t : Store}
    {outcome : Except Error Value} (evaluated : Evaluates expr frame s outcome t)
    (readable : expr.Readable) (clean : s.Clean) :
    t.Clean ∧ Expected Value.IsResult outcome := by
  obtain ⟨kept, expected⟩ := evaluated.keeps (D := sourceDiscipline) readable clean
  refine ⟨kept, ?_⟩
  cases outcome with
  | ok v => exact expected
  | error e => exact expected

end MiniLisp
