import Mathlib.Data.List.Basic
import MiniLisp.Evaluation
import MiniLisp.Proofs.Store.Writing
import MiniLisp.Proofs.Value.Parameters

/-! # Rules of evaluation

`Evaluates expr frame s outcome t` holds when evaluating `expr` in `frame` may take the store `s` to
`t` with this outcome. The rules name the parts that are evaluated, in their order, and what is done
to the store; they leave open how deep evaluation may nest, so that it can be cut off before any
part. `evaluate_evaluates` derives every run of the evaluator from them. What all rules keep, every
run keeps.
-/

namespace MiniLisp

/-- The values that stand for themselves. -/
inductive Value.IsAtom : Value → Prop where
  | number : IsAtom (.number n)
  | boolean : IsAtom (.boolean b)
  | builtin : IsAtom (.builtin b)

/-- Errors that come before any part of the value is evaluated. -/
inductive Refused : Value → Error → Prop where
  | tooDeep : Refused expr .tooDeep
  | closure : Refused (.closure params body outer) .bareClosure
  | foreign : Refused (.foreign v) (.unevaluable v)
  | empty : Refused (.list []) .emptyList
  | operandCount (keyword : head.keyword? = some k) (wrong : forms.length ≠ k.operandCount) :
      Refused (.list (head :: forms)) (.operandCount k forms.length)
  | target (keyword : head.keyword? = some .definition) (noSymbol : ∀ x, target ≠ .symbol x) :
      Refused (.list [head, target, form]) (.badTarget target)

/-- Errors of an application between the evaluation of its head and that of its arguments. -/
inductive Inapplicable : Value → Nat → Error → Prop where
  | tooDeep : Inapplicable function count .tooDeep
  | notFunction (noBuiltin : ∀ b, function ≠ .builtin b)
      (noClosure : ∀ params body outer, function ≠ .closure params body outer) :
      Inapplicable function count (.notFunction function)
  | arity (wrong : params.checkArity (count : Nat) = .error e) :
      Inapplicable (.closure params body outer) count e

mutual

inductive Evaluates : Value → FrameId → Store → Except Error Value → Store → Prop where
  | refused (reason : Refused expr e) : Evaluates expr frame s (.error e) s
  | symbol : Evaluates (.symbol x) frame s (s.lookup frame x) s
  | number : Evaluates (.number x) frame s (.ok (.number x)) s
  | boolean : Evaluates (.boolean b) frame s (.ok (.boolean b)) s
  | builtin : Evaluates (.builtin b) frame s (.ok (.builtin b)) s
  | testFails (keyword : head.keyword? = some .conditional)
      (tested : Evaluates test frame s (.error e) t) :
      Evaluates (.list [head, test, yes, no]) frame s (.error e) t
  | notBoolean (keyword : head.keyword? = some .conditional)
      (tested : Evaluates test frame s (.ok v) t) (noBoolean : ∀ b, v ≠ .boolean b)
      (reason : e = .notBoolean v ∨ e = .tooDeep) :
      Evaluates (.list [head, test, yes, no]) frame s (.error e) t
  | branch (keyword : head.keyword? = some .conditional)
      (tested : Evaluates test frame s (.ok (.boolean b)) t)
      (chosen : Evaluates (if b then yes else no) frame t outcome u) :
      Evaluates (.list [head, test, yes, no]) frame s outcome u
  | valueFails (keyword : head.keyword? = some .definition)
      (evaluated : Evaluates form frame s (.error e) t) :
      Evaluates (.list [head, .symbol x, form]) frame s (.error e) t
  | definition (keyword : head.keyword? = some .definition)
      (evaluated : Evaluates form frame s (.ok v) t) :
      Evaluates (.list [head, .symbol x, form]) frame s (.ok (.symbol x)) (t.bind frame x v)
  | abstraction (keyword : head.keyword? = some .abstraction) :
      Evaluates (.list [head, params, body]) frame s (.ok (.closure params body frame)) s
  | headFails (plain : head.keyword? = none) (first : Evaluates head frame s (.error e) t) :
      Evaluates (.list (head :: forms)) frame s (.error e) t
  | inapplicable (plain : head.keyword? = none) (first : Evaluates head frame s (.ok function) t)
      (reason : Inapplicable function forms.length e) :
      Evaluates (.list (head :: forms)) frame s (.error e) t
  | argumentsFail (plain : head.keyword? = none) (first : Evaluates head frame s (.ok function) t)
      (arguments : EvaluatesAll forms frame t (.error e) u) :
      Evaluates (.list (head :: forms)) frame s (.error e) u
  | primitive (plain : head.keyword? = none) (first : Evaluates head frame s (.ok (.builtin b)) t)
      (arguments : EvaluatesAll forms frame t (.ok args) u)
      (result : outcome = b.call args ∨ outcome = .error .tooDeep) :
      Evaluates (.list (head :: forms)) frame s outcome u
  | call (plain : head.keyword? = none)
      (first : Evaluates head frame s (.ok (.closure params body outer)) t)
      (arguments : EvaluatesAll forms frame t (.ok args) u)
      (opened : u.openCall outer params args = (.ok called, w))
      (result : Evaluates body called w outcome z) :
      Evaluates (.list (head :: forms)) frame s outcome z

inductive EvaluatesAll : List Value → FrameId → Store → Except Error (List Value) → Store → Prop where
  | tooDeep : EvaluatesAll forms frame s (.error .tooDeep) s
  | nil : EvaluatesAll [] frame s (.ok []) s
  | firstFails (first : Evaluates form frame s (.error e) t) :
      EvaluatesAll (form :: forms) frame s (.error e) t
  | cons (first : Evaluates form frame s (.ok v) t) (rest : EvaluatesAll forms frame t outcome u) :
      EvaluatesAll (form :: forms) frame s (outcome.map (v :: ·)) u

end

theorem EvaluatesAll.length_eq : EvaluatesAll forms frame s outcome t →
    ∀ {args}, outcome = .ok args → args.length = forms.length
  | .tooDeep, _, same => by contradiction
  | .nil, _, same => by cases same; rfl
  | .firstFails _, _, same => by contradiction
  | .cons _ rest, args, same => by
      rename_i outcome _
      cases outcome with
      | error e => contradiction
      | ok values =>
          cases same
          simp [rest.length_eq rfl]

theorem Builtin.compute_isAtom {b : Builtin} {xs : List Float} {v : Value}
    (computed : b.compute xs = .ok v) : v.IsAtom := by
  unfold compute at computed
  split at computed
  · cases computed
    exact .number
  · cases computed
    exact .number
  · cases computed
    exact .number
  · rename_i x ys
    cases divided : quotient x ys with
    | ok q =>
        rw [divided] at computed
        cases computed
        exact .number
    | error e =>
        rw [divided] at computed
        contradiction
  · split at computed
    · cases computed
      exact .boolean
    · contradiction

theorem Builtin.call_isAtom {b : Builtin} {args : List Value} {v : Value}
    (called : b.call args = .ok v) : v.IsAtom := by
  unfold call at called
  cases numbers : b.numbers args with
  | error e =>
      rw [numbers] at called
      contradiction
  | ok xs =>
      rw [numbers] at called
      exact compute_isAtom called

namespace Eval

variable {α β : Type} {s t : Store}

theorem run_pure {a : α} {outcome : Except Error α}
    (run : (pure a : Eval α).run.run s = (outcome, t)) : outcome = .ok a ∧ t = s := by
  cases run
  exact ⟨rfl, rfl⟩

theorem run_throw {e : Error} {outcome : Except Error α}
    (run : (throw e : Eval α).run.run s = (outcome, t)) : outcome = .error e ∧ t = s := by
  cases run
  exact ⟨rfl, rfl⟩

theorem run_bind {m : Eval α} {next : α → Eval β} {outcome : Except Error β}
    (run : (m >>= next).run.run s = (outcome, t)) :
    (∃ e, m.run.run s = (.error e, t) ∧ outcome = .error e) ∨
      ∃ a u, m.run.run s = (.ok a, u) ∧ (next a).run.run u = (outcome, t) := by
  change (ExceptT.bindCont next (m.run.run s).1).run (m.run.run s).2 = _ at run
  cases first : m.run.run s with
  | mk result u =>
      rw [first] at run
      cases result with
      | error e =>
          cases run
          exact .inl ⟨e, rfl, rfl⟩
      | ok a => exact .inr ⟨a, u, rfl, run⟩

theorem run_bind_of_ok {m : Eval α} {next : α → Eval β} {a : α}
    (first : m.run.run s = (.ok a, t)) : (m >>= next).run.run s = (next a).run.run t := by
  change (ExceptT.bindCont next (m.run.run s).1).run (m.run.run s).2 = _
  rw [first]
  rfl

theorem run_bind_of_error {m : Eval α} {next : α → Eval β} {e : Error}
    (first : m.run.run s = (.error e, t)) : (m >>= next).run.run s = (.error e, t) := by
  change (ExceptT.bindCont next (m.run.run s).1).run (m.run.run s).2 = _
  rw [first]
  rfl

theorem run_raise {depth : Nat} {e : Error} {outcome : Except Error α}
    (run : (raise depth e : Eval α).run.run s = (outcome, t)) :
    (outcome = .error e ∨ outcome = .error .tooDeep) ∧ t = s := by
  obtain ⟨rfl, rfl⟩ := run_throw run
  split
  · exact ⟨.inl rfl, rfl⟩
  · exact ⟨.inr rfl, rfl⟩

theorem run_lookup {frame : FrameId} {x : Symbol} {outcome : Except Error Value}
    (run : (lookup frame x).run.run s = (outcome, t)) : outcome = s.lookup frame x ∧ t = s := by
  obtain ⟨e, impossible, _⟩ | ⟨u, _, got, found⟩ := run_bind run
  · cases impossible
  · cases got
    cases value : s.lookup frame x with
    | ok v =>
        rw [value] at found
        exact run_pure found
    | error e =>
        rw [value] at found
        exact run_throw found

theorem run_lookup_eq (frame : FrameId) (x : Symbol) (s : Store) :
    (lookup frame x).run.run s = (s.lookup frame x, s) :=
  Prod.ext (run_lookup rfl).1 (run_lookup rfl).2

end Eval

/-- All evaluations of less depth than `limit` follow the rules. -/
def Covered (limit : Nat) : Prop :=
  ∀ depth < limit, ∀ {expr frame s outcome t},
    (evaluate depth expr frame).run.run s = (outcome, t) → Evaluates expr frame s outcome t

theorem evaluateForm_wrong {depth : Nat} {k : Keyword} {forms : List Value} {frame : FrameId}
    (wrong : forms.length ≠ k.operandCount) :
    evaluateForm (depth + 1) k forms frame = throw (.operandCount k forms.length) := by
  unfold evaluateForm
  split
  · contradiction
  · exact absurd rfl wrong
  · exact absurd rfl wrong
  · exact absurd rfl wrong
  · rfl

theorem evaluateForm_target {depth : Nat} {target form : Value} {frame : FrameId}
    (noSymbol : ∀ x, target ≠ .symbol x) :
    evaluateForm (depth + 1) .definition [target, form] frame =
      Eval.raise depth (.badTarget target) := by
  rw [evaluateForm]
  exact noSymbol

theorem evaluate_form {depth : Nat} {head : Value} {k : Keyword} {forms : List Value}
    {frame : FrameId} (keyword : head.keyword? = some k) :
    evaluate (depth + 1) (.list (head :: forms)) frame = evaluateForm depth k forms frame := by
  simp only [evaluate, keyword]

theorem evaluate_application {depth : Nat} {head : Value} {forms : List Value} {frame : FrameId}
    (plain : head.keyword? = none) :
    evaluate (depth + 1) (.list (head :: forms)) frame =
      (do apply depth (← evaluate depth head frame) forms frame) := by
  simp only [evaluate, plain]

section

variable {limit depth : Nat} {expr head function params body : Value} {forms : List Value}
variable {frame outer : FrameId} {s t u : Store}
variable (covered : Covered limit) (below : depth ≤ limit)
include covered below

theorem evaluateAll_covered {outcome : Except Error (List Value)}
    (run : (evaluateAll depth forms frame).run.run s = (outcome, t)) :
    EvaluatesAll forms frame s outcome t := by
  match depth with
  | 0 | 1 =>
      obtain ⟨rfl, rfl⟩ := Eval.run_throw run
      exact .tooDeep
  | depth + 2 =>
      unfold evaluateAll at run
      induction forms generalizing s outcome with
      | nil =>
          obtain ⟨rfl, rfl⟩ := Eval.run_pure run
          exact .nil
      | cons form forms ih =>
          rw [List.mapM_cons] at run
          obtain ⟨e, failed, rfl⟩ | ⟨v, u, first, run⟩ := Eval.run_bind run
          · exact .firstFails (covered depth (by omega) failed)
          · have first := covered depth (by omega) first
            obtain ⟨e, failed, rfl⟩ | ⟨values, w, rest, run⟩ := Eval.run_bind run
            · exact .cons first (ih failed)
            · obtain ⟨rfl, rfl⟩ := Eval.run_pure run
              exact .cons first (ih rest)

variable {outcome : Except Error Value} (plain : head.keyword? = none)
include plain

theorem applyClosure_covered
    (first : Evaluates head frame s (.ok (.closure params body outer)) t)
    (run : (applyClosure depth params body outer forms frame).run.run t = (outcome, u)) :
    Evaluates (.list (head :: forms)) frame s outcome u := by
  match depth with
  | 0 =>
      obtain ⟨rfl, rfl⟩ := Eval.run_throw run
      exact .inapplicable plain first .tooDeep
  | depth + 1 =>
      unfold applyClosure at run
      split at run
      · rename_i e wrong
        obtain ⟨rfl, rfl⟩ := Eval.run_throw run
        exact .inapplicable plain first (.arity wrong)
      · rename_i arity
        obtain ⟨e, failed, rfl⟩ | ⟨args, w, arguments, run⟩ := Eval.run_bind run
        · exact .argumentsFail plain first (evaluateAll_covered covered (by omega) failed)
        · have arguments := evaluateAll_covered covered (by omega) arguments
          obtain ⟨e, failed, rfl⟩ | ⟨called, z, opened, run⟩ := Eval.run_bind run
          -- The number of arguments was accepted before they ran, so the call does open.
          · obtain ⟨formals, found, arity⟩ := Value.checkArity_eq_ok arity
            have provided := arguments.length_eq rfl
            have enough : formals.length = args.length := by omega
            obtain ⟨called, z, opened⟩ := w.openCall_exists outer found enough
            cases failed.symm.trans opened
          · exact .call plain first arguments opened (covered depth (by omega) run)

theorem apply_covered (first : Evaluates head frame s (.ok function) t)
    (run : (apply depth function forms frame).run.run t = (outcome, u)) :
    Evaluates (.list (head :: forms)) frame s outcome u := by
  match depth with
  | 0 =>
      obtain ⟨rfl, rfl⟩ := Eval.run_throw run
      exact .inapplicable plain first .tooDeep
  | depth + 1 =>
      unfold apply at run
      split at run
      · rename_i b
        obtain ⟨e, failed, rfl⟩ | ⟨args, w, arguments, run⟩ := Eval.run_bind run
        · exact .argumentsFail plain first (evaluateAll_covered covered (by omega) failed)
        · have arguments := evaluateAll_covered covered (by omega) arguments
          split at run
          · rename_i v result
            obtain ⟨rfl, rfl⟩ := Eval.run_pure run
            exact .primitive plain first arguments (.inl result.symm)
          · rename_i e result
            obtain ⟨raised, rfl⟩ := Eval.run_raise run
            rw [← result] at raised
            exact .primitive plain first arguments raised
      · exact applyClosure_covered covered (by omega) plain first run
      · rename_i noBuiltin noClosure
        obtain ⟨rfl | rfl, rfl⟩ := Eval.run_raise run
        · exact .inapplicable plain first (.notFunction noBuiltin noClosure)
        · exact .inapplicable plain first .tooDeep

omit plain

theorem definition_covered {target form : Value} (keyword : head.keyword? = some .definition)
    (run : (evaluateForm depth .definition [target, form] frame).run.run s = (outcome, t)) :
    Evaluates (.list [head, target, form]) frame s outcome t := by
  match depth with
  | 0 =>
      obtain ⟨rfl, rfl⟩ := Eval.run_throw run
      exact .refused .tooDeep
  | depth + 1 =>
      by_cases named : ∃ x, target = .symbol x
      · obtain ⟨x, rfl⟩ := named
        rw [evaluateForm] at run
        obtain ⟨e, failed, rfl⟩ | ⟨v, u, evaluated, run⟩ := Eval.run_bind run
        · exact .valueFails keyword (covered _ (by omega) failed)
        · have evaluated := covered _ (by omega) evaluated
          obtain ⟨e, impossible, _⟩ | ⟨_, w, bound, run⟩ := Eval.run_bind run
          · cases impossible
          · cases bound
            obtain ⟨rfl, rfl⟩ := Eval.run_pure run
            exact .definition keyword evaluated
      · have noSymbol : ∀ x, target ≠ .symbol x := fun x same => named ⟨x, same⟩
        rw [evaluateForm] at run
        · obtain ⟨rfl | rfl, rfl⟩ := Eval.run_raise run
          · exact .refused (.target keyword noSymbol)
          · exact .refused .tooDeep
        · exact noSymbol

theorem evaluateForm_covered {k : Keyword} (keyword : head.keyword? = some k)
    (run : (evaluateForm depth k forms frame).run.run s = (outcome, t)) :
    Evaluates (.list (head :: forms)) frame s outcome t := by
  match depth with
  | 0 =>
      obtain ⟨rfl, rfl⟩ := Eval.run_throw run
      exact .refused .tooDeep
  | depth + 1 =>
      by_cases right : forms.length = k.operandCount
      · cases k with
        | conditional =>
            obtain ⟨test, yes, no, rfl⟩ := List.length_eq_three.mp right
            rw [evaluateForm] at run
            obtain ⟨e, failed, rfl⟩ | ⟨v, u, tested, run⟩ := Eval.run_bind run
            · exact .testFails keyword (covered _ (by omega) failed)
            · have tested := covered _ (by omega) tested
              split at run
              · exact .branch keyword tested (covered _ (by omega) run)
              · rename_i noBoolean
                obtain ⟨rfl | rfl, rfl⟩ := Eval.run_raise run
                · exact .notBoolean keyword tested noBoolean (.inl rfl)
                · exact .notBoolean keyword tested noBoolean (.inr rfl)
        | definition =>
            obtain ⟨target, form, rfl⟩ := List.length_eq_two.mp right
            exact definition_covered covered (by omega) keyword run
        | abstraction =>
            obtain ⟨params, body, rfl⟩ := List.length_eq_two.mp right
            obtain ⟨rfl, rfl⟩ := Eval.run_pure run
            exact .abstraction keyword
      · rw [evaluateForm_wrong right] at run
        obtain ⟨rfl, rfl⟩ := Eval.run_throw run
        exact .refused (.operandCount keyword right)

end

theorem covered_all (limit : Nat) : Covered limit := by
  -- On the limit and not on the depth, since arguments are evaluated two steps further down.
  induction limit with
  | zero => intro depth below; omega
  | succ limit covered =>
      intro depth below expr frame s outcome t run
      match depth with
      | 0 =>
          obtain ⟨rfl, rfl⟩ := Eval.run_throw run
          exact .refused .tooDeep
      | depth + 1 =>
          unfold evaluate at run
          split at run
          · obtain ⟨rfl, rfl⟩ := Eval.run_lookup run
            exact .symbol
          · obtain ⟨rfl, rfl⟩ := Eval.run_pure run
            exact .number
          · obtain ⟨rfl, rfl⟩ := Eval.run_pure run
            exact .boolean
          · obtain ⟨rfl, rfl⟩ := Eval.run_pure run
            exact .builtin
          · obtain ⟨rfl, rfl⟩ := Eval.run_throw run
            exact .refused .closure
          · obtain ⟨rfl, rfl⟩ := Eval.run_throw run
            exact .refused .foreign
          · obtain ⟨rfl, rfl⟩ := Eval.run_throw run
            exact .refused .empty
          · rename_i head forms
            split at run
            · rename_i k keyword
              exact evaluateForm_covered covered (by omega) keyword run
            · rename_i plain
              obtain ⟨e, failed, rfl⟩ | ⟨function, u, first, run⟩ := Eval.run_bind run
              · exact .headFails plain (covered _ (by omega) failed)
              · have first := covered _ (by omega) first
                exact apply_covered covered (by omega) plain first run

/-- Every run of the evaluator, whatever its outcome, follows the rules. -/
theorem evaluate_evaluates {depth : Nat} {expr : Value} {frame : FrameId} {s t : Store}
    {outcome : Except Error Value}
    (run : (evaluate depth expr frame).run.run s = (outcome, t)) :
    Evaluates expr frame s outcome t :=
  covered_all (depth + 1) depth (by omega) run

end MiniLisp
