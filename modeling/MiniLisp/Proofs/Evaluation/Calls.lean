import MiniLisp.Proofs.Evaluation.Rules

namespace MiniLisp

section

variable {head params body : Value} {forms args : List Value} {frame outer : FrameId}
variable {s t u : Store} {depth : Nat} {e : Error}

/-- Two steps lead from the value of the head to the checks. -/
theorem evaluate_closure (plain : head.keyword? = none)
    (first : (evaluate (depth + 2) head frame).run.run s = (.ok (.closure params body outer), t)) :
    (evaluate (depth + 3) (.list (head :: forms)) frame).run.run s =
      (applyClosure (depth + 1) params body outer forms frame).run.run t := by
  rw [evaluate_application plain, Eval.run_bind_of_ok first]
  rfl

theorem applyClosure_of_refused (refused : params.checkArity (forms.length : Nat) = .error e) :
    (applyClosure (depth + 1) params body outer forms frame).run.run t = (.error e, t) := by
  unfold applyClosure
  rw [refused]
  rfl

variable (accepted : params.checkArity (forms.length : Nat) = .ok ())
include accepted

theorem applyClosure_of_failed_arguments
    (failed : (evaluateAll depth forms frame).run.run t = (.error e, u)) :
    (applyClosure (depth + 1) params body outer forms frame).run.run t = (.error e, u) := by
  unfold applyClosure
  rw [accepted]
  exact Eval.run_bind_of_error failed

theorem applyClosure_of_arguments
    (arguments : (evaluateAll depth forms frame).run.run t = (.ok args, u)) :
    ∃ called w, u.openCall outer params args = (.ok called, w) ∧
      (applyClosure (depth + 1) params body outer forms frame).run.run t =
        (evaluate depth body called).run.run w := by
  obtain ⟨formals, found, arity⟩ := Value.checkArity_eq_ok accepted
  have evaluated := evaluateAll_covered (covered_all depth) (Nat.le_refl depth) arguments
  have enough : formals.length = args.length := by
    rw [evaluated.length_eq rfl]
    omega
  obtain ⟨called, w, opened⟩ := u.openCall_exists outer found enough
  have opening : (Eval.openCall outer params args).run.run u = (.ok called, w) := opened
  refine ⟨called, w, opened, ?_⟩
  unfold applyClosure
  rw [accepted]
  exact (Eval.run_bind_of_ok arguments).trans (Eval.run_bind_of_ok opening)

end

/-- A list whose head evaluates to a closure is refused for the parameters or for the number of its
arguments in the store that the head left, unless too little depth is left to check them. Otherwise
it comes to what its arguments come to, as long as they fail; and when they do not, the call opens
and comes to its body. Whatever parameters and arguments are given, both checks refuse them for the
same reason. -/
theorem call_checks_conclusive :
    (∀ (depth : Nat) (head : Value) (forms : List Value) (frame : FrameId) (s t : Store)
        (params body : Value) (outer : FrameId), head.keyword? = none →
      (evaluate depth head frame).run.run s = (.ok (.closure params body outer), t) →
      let run := (evaluate (depth + 1) (.list (head :: forms)) frame).run.run s
      let arguments := (evaluateAll (depth - 2) forms frame).run.run t
      (depth < 2 → run = (.error .tooDeep, t)) ∧
      (2 ≤ depth → (∀ formals : List Symbol, params ≠ .list (formals.map .symbol)) →
        run = (.error .badParameters, t)) ∧
      ∀ formals : List Symbol, params = .list (formals.map .symbol) →
        (2 ≤ depth → formals.length ≠ forms.length →
          run = (.error (.argumentCount formals.length forms.length), t)) ∧
        (2 ≤ depth → formals.length = forms.length →
          (∀ e u, arguments = (.error e, u) → run = (.error e, u)) ∧
          ∀ args u, arguments = (.ok args, u) →
            ∃ called w, u.openCall outer params args = (.ok called, w) ∧
              run = (evaluate (depth - 2) body called).run.run w)) ∧
    ∀ (s : Store) (outer : FrameId) (params : Value) (args : List Value) (e : Error),
      s.openCall outer params args = (.error e, s) ↔
        params.checkArity (args.length : Nat) = .error e := by
  refine ⟨?_, fun _ _ _ _ _ => Store.openCall_eq_error_iff⟩
  intro depth head forms frame s t params body outer plain first
  match depth with
  | 0 =>
      obtain ⟨impossible, _⟩ := Eval.run_throw first
      contradiction
  | 1 =>
      intro run arguments
      have stopped : run = (.error .tooDeep, t) := by
        change (evaluate 2 (.list (head :: forms)) frame).run.run s = _
        rw [evaluate_application plain, Eval.run_bind_of_ok first]
        rfl
      exact ⟨fun _ => stopped, by omega, fun _ _ => ⟨by omega, by omega⟩⟩
  | depth + 2 =>
      intro run arguments
      have call : run = (applyClosure (depth + 1) params body outer forms frame).run.run t :=
        evaluate_closure plain first
      rw [call]
      refine ⟨by omega, fun _ other => ?_, ?_⟩
      · exact applyClosure_of_refused (Value.checkArity_of_not_symbols other _)
      · rintro formals rfl
        refine ⟨fun _ wrong => ?_, fun _ right => ?_⟩
        · refine applyClosure_of_refused ?_
          rw [Value.checkArity_symbols, if_neg (by omega)]
        · have accepted :
              (Value.list (formals.map .symbol)).checkArity (forms.length : Nat) = .ok () := by
            rw [Value.checkArity_symbols, if_pos (by omega)]
          exact ⟨fun _ _ => applyClosure_of_failed_arguments accepted,
            fun _ _ => applyClosure_of_arguments accepted⟩

/-- Parameters that are no list, arguments that are missing, and a call that opens. The definition
among the arguments of the first is not evaluated. -/
theorem call_checks_conclusive_refused :
    let x : Value := .symbol ⟨"x"⟩
    let define : Value := .list [.symbol ⟨"define"⟩, x, .boolean true]
    let variadic : Value := .list [.symbol ⟨"lambda"⟩, x, x]
    let identity : Value := .list [.symbol ⟨"lambda"⟩, .list [x], x]
    let s := (Store.allocate {} none).2
    (variadic.keyword? = none ∧ identity.keyword? = none ∧
      (evaluate 5 variadic 0).run.run s = (.ok (.closure x x 0), s) ∧
      (evaluate 5 identity 0).run.run s = (.ok (.closure (.list [x]) x 0), s) ∧
      ∀ formals : List Symbol, x ≠ .list (formals.map .symbol)) ∧
    (evaluate 6 (.list [variadic, define]) 0).run.run s = (.error .badParameters, s) ∧
    (evaluate 6 (.list [identity]) 0).run.run s = (.error (.argumentCount 1 0), s) ∧
    (∃ called w, s.openCall 0 (.list [x]) [.boolean true] = (.ok called, w) ∧
      (evaluate 6 (.list [identity, .boolean true]) 0).run.run s =
        (evaluate 3 x called).run.run w) ∧
    s.openCall 0 x [] = (.error .badParameters, s) := by
  intro x define variadic identity s
  have closures : (evaluate 5 variadic 0).run.run s = (.ok (.closure x x 0), s) ∧
      (evaluate 5 identity 0).run.run s = (.ok (.closure (.list [x]) x 0), s) := ⟨rfl, rfl⟩
  have other : ∀ formals : List Symbol, x ≠ .list (formals.map .symbol) :=
    fun _ => Value.noConfusion
  obtain ⟨_, refused, _⟩ := call_checks_conclusive.1 5 variadic [define] 0 s s x x 0 rfl closures.1
  obtain ⟨_, _, missing⟩ :=
    call_checks_conclusive.1 5 identity [] 0 s s (.list [x]) x 0 rfl closures.2
  obtain ⟨_, _, opens⟩ :=
    call_checks_conclusive.1 5 identity [.boolean true] 0 s s (.list [x]) x 0 rfl closures.2
  refine ⟨⟨rfl, rfl, closures.1, closures.2, other⟩, refused (by decide) other, ?_, ?_, ?_⟩
  · exact (missing [⟨"x"⟩] rfl).1 (by decide) (by decide)
  · exact ((opens [⟨"x"⟩] rfl).2 (by decide) rfl).2 _ _ rfl
  · exact (call_checks_conclusive.2 s 0 x [] .badParameters).mpr rfl

end MiniLisp
