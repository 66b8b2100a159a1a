import MiniLisp.Proofs.Evaluation.Depth

/-! # How deeply evaluations nest

The depth of an evaluation counts all steps that are under way, and messages count too. Here only
evaluations do: `nested n` evaluates a value with no more than `n` evaluations inside each other.
It is one layer of evaluation, `evaluateBy`, around layers of the same kind.

Apart from what they count the two are the same evaluation. A depth allows no more evaluations
inside each other than there are steps, and five steps for each of them are enough. So `nested` is
no other evaluator: `exists_nested_iff_exists_evaluate` says that it can end in the same ways, and
this is what lets its bound be read as the number of evaluations that are under way.
-/

namespace MiniLisp

section

variable (inner : Value → FrameId → Eval Value)

/-- A form of a keyword, with `inner` for the evaluations that it makes. -/
def formBy : Keyword → List Value → FrameId → Eval Value
  | .conditional, [test, yes, no], frame => do
    match ← inner test frame with
    | .boolean b => inner (if b then yes else no) frame
    | v => throw (.notBoolean v)
  | .definition, [target, form], frame => do
    match target with
    | .symbol x =>
      let v ← inner form frame
      Eval.bind frame x v
      pure target
    | _ => throw (.badTarget target)
  | .abstraction, [params, body], frame => pure (.closure params body frame)
  | k, forms, _ => throw (.operandCount k forms.length)

/-- An application of a function to forms, with `inner` for the evaluations that it makes. -/
def applyBy (function : Value) (forms : List Value) (frame : FrameId) : Eval Value :=
  match function with
  | .builtin b => do
    let args ← forms.mapM fun form => inner form frame
    match b.call args with
    | .ok v => pure v
    | .error e => throw e
  | .closure params body outer =>
    match params.checkArity forms.length with
    | .error e => throw e
    | .ok () => do
      let args ← forms.mapM fun form => inner form frame
      let call ← Eval.openCall outer params args
      inner body call
  | v => throw (.notFunction v)

/-- An evaluation, with `inner` for the evaluations that it makes. -/
def evaluateBy (expr : Value) (frame : FrameId) : Eval Value :=
  match expr with
  | .symbol x => Eval.lookup frame x
  | .number _ | .boolean _ | .builtin _ => pure expr
  | .closure .. => throw .bareClosure
  | .foreign v => throw (.unevaluable v)
  | .list [] => throw .emptyList
  | .list (head :: forms) =>
    match head.keyword? with
    | some k => formBy inner k forms frame
    | none => do applyBy inner (← inner head frame) forms frame

end

/-- Evaluation with no more than `n` evaluations inside each other. -/
def nested : Nat → Value → FrameId → Eval Value
  | 0, _, _ => throw .tooDeep
  | n + 1, expr, frame => evaluateBy (nested n) expr frame

theorem formBy_wrong {inner : Value → FrameId → Eval Value} {k : Keyword} {forms : List Value}
    {frame : FrameId} (wrong : forms.length ≠ k.operandCount) :
    formBy inner k forms frame = throw (.operandCount k forms.length) := by
  unfold formBy
  split
  · exact absurd rfl wrong
  · exact absurd rfl wrong
  · exact absurd rfl wrong
  · rfl

open Eval

theorem Eval.CutOff.ofRaise {α : Type} (n : Nat) (e : Error) :
    CutOff (Eval.raise n e : Eval α) (throw e) := by
  unfold Eval.raise
  split
  · exact .ofThrow e
  · exact .tooDeep fun _ => .refl

section

variable {inner : Value → FrameId → Eval Value} {n depth : Nat}
variable (cuts : ∀ short ≤ n, ∀ expr frame, CutOff (evaluate short expr frame) (inner expr frame))
include cuts

theorem evaluateAll_cutOff (shallow : depth ≤ n) (forms : List Value) (frame : FrameId) :
    CutOff (evaluateAll depth forms frame) (forms.mapM fun form => inner form frame) := by
  have all (short : Nat) (below : short ≤ n) :
      CutOff (forms.mapM fun form => evaluate short form frame)
        (forms.mapM fun form => inner form frame) :=
    .mapM (fun form => cuts short below form frame) forms
  match depth with
  | 0 | 1 => exact .tooDeep (all 0 (Nat.zero_le n)).continues
  | depth + 2 => exact all depth (by omega)

theorem applyClosure_cutOff (shallow : depth ≤ n) (params body : Value) (outer : FrameId)
    (forms : List Value) (frame : FrameId) :
    CutOff (applyClosure depth params body outer forms frame)
      (applyBy inner (.closure params body outer) forms frame) := by
  have step (short : Nat) (below : short ≤ n) :
      CutOff (applyClosure (short + 1) params body outer forms frame)
        (applyBy inner (.closure params body outer) forms frame) := by
    rw [applyClosure, applyBy]
    cases params.checkArity forms.length with
    | error e => exact .ofThrow e
    | ok _ =>
        refine (evaluateAll_cutOff cuts below forms frame).bind fun args => ?_
        refine CutOff.bind (.refl fun s => .openCall outer params args) fun called => ?_
        exact cuts short below body called
  cases depth with
  | zero => exact .tooDeep (step 0 (Nat.zero_le n)).continues
  | succ depth => exact step depth (by omega)

theorem apply_cutOff (shallow : depth ≤ n) (function : Value) (forms : List Value)
    (frame : FrameId) :
    CutOff (apply depth function forms frame) (applyBy inner function forms frame) := by
  have step (short : Nat) (below : short ≤ n) :
      CutOff (apply (short + 1) function forms frame) (applyBy inner function forms frame) := by
    cases function with
    | builtin b =>
        refine (evaluateAll_cutOff cuts below forms frame).bind fun args => ?_
        cases b.call args with
        | ok v => exact .ofPure v
        | error e => exact .ofRaise short e
    | closure params body outer => exact applyClosure_cutOff cuts below params body outer forms frame
    | number | boolean | symbol | list | foreign => exact .ofRaise short _
  cases depth with
  | zero => exact .tooDeep (step 0 (Nat.zero_le n)).continues
  | succ depth => exact step depth (by omega)

theorem evaluateForm_cutOff (shallow : depth ≤ n) (k : Keyword) (forms : List Value)
    (frame : FrameId) :
    CutOff (evaluateForm depth k forms frame) (formBy inner k forms frame) := by
  have step (short : Nat) (below : short ≤ n) :
      CutOff (evaluateForm (short + 1) k forms frame) (formBy inner k forms frame) := by
    by_cases right : forms.length = k.operandCount
    · cases k with
      | conditional =>
          obtain ⟨test, yes, no, rfl⟩ := List.length_eq_three.mp right
          rw [evaluateForm, formBy]
          refine (cuts short below test frame).bind fun v => ?_
          cases v with
          | boolean b => exact cuts short below _ frame
          | number | symbol | list | builtin | closure | foreign => exact .ofRaise short _
      | definition =>
          obtain ⟨target, form, rfl⟩ := List.length_eq_two.mp right
          cases target with
          | symbol x =>
              rw [evaluateForm, formBy]
              refine (cuts short below form frame).bind fun v => ?_
              exact CutOff.bind (.refl fun s => .bind frame x v) fun _ => .ofPure _
          | number | boolean | list | builtin | closure | foreign => exact .ofRaise short _
      | abstraction =>
          obtain ⟨params, body, rfl⟩ := List.length_eq_two.mp right
          exact .ofPure _
    · rw [evaluateForm_wrong right, formBy_wrong right]
      exact .ofThrow _
  cases depth with
  | zero => exact .tooDeep (step 0 (Nat.zero_le n)).continues
  | succ depth => exact step depth (by omega)

theorem evaluateBy_cutOff (shallow : depth ≤ n) (expr : Value) (frame : FrameId) :
    CutOff (evaluate (depth + 1) expr frame) (evaluateBy inner expr frame) := by
  unfold evaluate evaluateBy
  cases expr with
  | symbol x => exact .lookup frame x
  | number | boolean | builtin => exact .ofPure _
  | closure | foreign => exact .ofThrow _
  | list items =>
      cases items with
      | nil => exact .ofThrow _
      | cons head forms =>
          dsimp only
          cases head.keyword? with
          | some k => exact evaluateForm_cutOff cuts shallow k forms frame
          | none =>
              refine (cuts depth shallow head frame).bind fun function => ?_
              exact apply_cutOff cuts shallow function forms frame

end

theorem evaluate_cutOff_nested {depth n : Nat} (shallow : depth ≤ n) (expr : Value)
    (frame : FrameId) : CutOff (evaluate depth expr frame) (nested n expr frame) := by
  induction n generalizing depth expr frame with
  | zero =>
      cases Nat.le_zero.mp shallow
      exact .ofThrow _
  | succ n ih =>
      have step (short : Nat) (below : short ≤ n) :=
        evaluateBy_cutOff (fun _ below => ih below) below expr frame
      cases depth with
      | zero => exact .tooDeep (step 0 (Nat.zero_le n)).continues
      | succ depth => exact step depth (by omega)

/-- The depth that it takes to write the message of an outcome. -/
def messageDepth {α : Type} : Except Error α → Nat
  | .ok _ => 0
  | .error e => e.depth

namespace Eval

variable {α β : Type}

/-- `long` does all that `m` does, if `m` ends with an outcome whose message takes no more than the
depth to spare. -/
def Attains (spare : Nat) (long m : Eval α) : Prop :=
  ∀ s : Store, (m.run.run s).1 ≠ .error .tooDeep → messageDepth (m.run.run s).1 ≤ spare →
    long.run.run s = m.run.run s

namespace Attains

variable {spare : Nat} {long m : Eval α}

theorem refl : Attains spare m m :=
  fun _ _ _ => rfl

theorem raise {depth : Nat} (enough : spare ≤ depth) (e : Error) :
    Attains spare (Eval.raise depth e : Eval α) (throw e) := by
  intro s _ fits
  have shown : e.depth ≤ depth := Nat.le_trans fits enough
  rw [Eval.raise, if_pos shown]

theorem bind {next further : α → Eval β} (first : Attains spare long m)
    (rest : ∀ a, Attains spare (next a) (further a)) :
    Attains spare (long >>= next) (m >>= further) := by
  intro s ended fits
  have first := first s
  cases run : m.run.run s with
  | mk result t =>
      rw [run] at first
      cases result with
      | error e =>
          rw [run_bind_of_error run] at ended fits ⊢
          have ended : e ≠ .tooDeep := fun same => ended (congrArg Except.error same)
          rw [run_bind_of_error (first (mt Except.error.inj ended) fits)]
      | ok a =>
          rw [run_bind_of_ok run] at ended fits ⊢
          rw [run_bind_of_ok (first nofun (Nat.zero_le spare))]
          exact rest a t ended fits

theorem mapM {f g : Value → Eval α} (each : ∀ v, Attains spare (f v) (g v)) (values : List Value) :
    Attains spare (values.mapM f) (values.mapM g) := by
  induction values with
  | nil => exact refl
  | cons v rest ih =>
      rw [List.mapM_cons, List.mapM_cons]
      exact (each v).bind fun a => ih.bind fun others => refl

end Attains

end Eval

section

variable {inner : Value → FrameId → Eval Value} {spare least depth : Nat}
variable (room : spare ≤ least)
variable (attains : ∀ depth ≥ least, ∀ expr frame,
  Attains spare (evaluate depth expr frame) (inner expr frame))
include attains

theorem evaluateAll_attains (enough : least + 2 ≤ depth) (forms : List Value) (frame : FrameId) :
    Attains spare (evaluateAll depth forms frame) (forms.mapM fun form => inner form frame) := by
  match depth with
  | depth + 2 => exact .mapM (fun form => attains depth (by omega) form frame) forms

theorem applyClosure_attains (enough : least + 3 ≤ depth) (params body : Value) (outer : FrameId)
    (forms : List Value) (frame : FrameId) :
    Attains spare (applyClosure depth params body outer forms frame)
      (applyBy inner (.closure params body outer) forms frame) := by
  cases depth with
  | zero => contradiction
  | succ depth =>
      rw [applyClosure, applyBy]
      cases params.checkArity forms.length with
      | error e => exact .refl
      | ok _ =>
          refine (evaluateAll_attains attains (by omega) forms frame).bind fun args => ?_
          exact Attains.bind .refl fun called => attains depth (by omega) body called

include room

theorem apply_attains (enough : least + 4 ≤ depth) (function : Value) (forms : List Value)
    (frame : FrameId) :
    Attains spare (apply depth function forms frame) (applyBy inner function forms frame) := by
  cases depth with
  | zero => contradiction
  | succ depth =>
      cases function with
      | builtin b =>
          refine (evaluateAll_attains attains (by omega) forms frame).bind fun args => ?_
          cases b.call args with
          | ok v => exact .refl
          | error e => exact .raise (by omega) e
      | closure params body outer =>
          exact applyClosure_attains attains (by omega) params body outer forms frame
      | number | boolean | symbol | list | foreign => exact .raise (by omega) _

theorem evaluateForm_attains (enough : least + 1 ≤ depth) (k : Keyword) (forms : List Value)
    (frame : FrameId) :
    Attains spare (evaluateForm depth k forms frame) (formBy inner k forms frame) := by
  cases depth with
  | zero => contradiction
  | succ depth =>
      by_cases right : forms.length = k.operandCount
      · cases k with
        | conditional =>
            obtain ⟨test, yes, no, rfl⟩ := List.length_eq_three.mp right
            rw [evaluateForm, formBy]
            refine (attains depth (by omega) test frame).bind fun v => ?_
            cases v with
            | boolean b => exact attains depth (by omega) _ frame
            | number | symbol | list | builtin | closure | foreign => exact .raise (by omega) _
        | definition =>
            obtain ⟨target, form, rfl⟩ := List.length_eq_two.mp right
            cases target with
            | symbol x =>
                rw [evaluateForm, formBy]
                exact (attains depth (by omega) form frame).bind fun v => .refl
            | number | boolean | list | builtin | closure | foreign => exact .raise (by omega) _
        | abstraction =>
            obtain ⟨params, body, rfl⟩ := List.length_eq_two.mp right
            exact .refl
      · rw [evaluateForm_wrong right, formBy_wrong right]
        exact .refl

theorem evaluateBy_attains (enough : least + 5 ≤ depth) (expr : Value) (frame : FrameId) :
    Attains spare (evaluate depth expr frame) (evaluateBy inner expr frame) := by
  cases depth with
  | zero => contradiction
  | succ depth =>
      unfold evaluate evaluateBy
      cases expr with
      | symbol | number | boolean | builtin | closure | foreign => exact .refl
      | list items =>
          cases items with
          | nil => exact .refl
          | cons head forms =>
              dsimp only
              cases head.keyword? with
              | some k => exact evaluateForm_attains room attains (by omega) k forms frame
              | none =>
                  refine (attains depth (by omega) head frame).bind fun function => ?_
                  exact apply_attains room attains (by omega) function forms frame

end

/-- Evaluation, application, call and arguments come between two evaluations. -/
theorem evaluate_attains_nested {n spare depth : Nat} (enough : 5 * n + spare ≤ depth)
    (expr : Value) (frame : FrameId) :
    Attains spare (evaluate depth expr frame) (nested n expr frame) := by
  induction n generalizing depth expr frame with
  | zero => exact fun s ended => absurd rfl ended
  | succ n ih =>
      have room : spare ≤ 5 * n + spare := Nat.le_add_left ..
      exact evaluateBy_attains room (fun _ enough => ih enough) (by omega) expr frame

section

variable {n m depth : Nat} {expr : Value} {frame : FrameId} {s t : Store}
variable {outcome other : Except Error Value}

/-- What ends within `n` nested evaluations ends in the same way at every depth that is enough for
these and for the message. -/
theorem evaluate_eq_nested (run : (nested n expr frame).run.run s = (outcome, t))
    (ended : outcome ≠ .error .tooDeep) (enough : 5 * n + messageDepth outcome ≤ depth) :
    (evaluate depth expr frame).run.run s = (outcome, t) := by
  have same := evaluate_attains_nested enough expr frame s
  rw [run] at same
  exact same ended (Nat.le_refl _)

theorem nested_evaluates (run : (nested n expr frame).run.run s = (outcome, t))
    (ended : outcome ≠ .error .tooDeep) : Evaluates expr frame s outcome t :=
  evaluate_evaluates (evaluate_eq_nested run ended (Nat.le_refl _))

/-- All that end do the same, however many nested evaluations are allowed. -/
theorem nested_eq_nested (run : (nested n expr frame).run.run s = (outcome, t))
    (ended : outcome ≠ .error .tooDeep)
    (again : ((nested m expr frame).run.run s).1 ≠ .error .tooDeep) :
    (nested m expr frame).run.run s = (outcome, t) := by
  cases other : (nested m expr frame).run.run s with
  | mk result u =>
      rw [other] at again
      let enough := max (5 * n + messageDepth outcome) (5 * m + messageDepth result)
      have first : (evaluate enough expr frame).run.run s = (outcome, t) :=
        evaluate_eq_nested run ended (Nat.le_max_left ..)
      have second : (evaluate enough expr frame).run.run s = (result, u) :=
        evaluate_eq_nested other again (Nat.le_max_right ..)
      rw [← second, first]

/-- What ends at some depth ends in the same way with as many nested evaluations. -/
theorem nested_eq_evaluate (run : (evaluate depth expr frame).run.run s = (outcome, t))
    (ended : outcome ≠ .error .tooDeep) (enough : depth ≤ n) :
    (nested n expr frame).run.run s = (outcome, t) := by
  have agrees := (evaluate_cutOff_nested enough expr frame).agrees s
  rw [run] at agrees
  exact agrees.resolve_right fun cut => ended cut.1

/-- Whether steps are counted or evaluations makes no difference to how an evaluation can end. -/
theorem exists_nested_iff_exists_evaluate (ended : outcome ≠ .error .tooDeep) :
    (∃ n, (nested n expr frame).run.run s = (outcome, t)) ↔
      ∃ depth, (evaluate depth expr frame).run.run s = (outcome, t) := by
  constructor
  · rintro ⟨n, run⟩
    exact ⟨_, evaluate_eq_nested run ended (Nat.le_refl _)⟩
  · rintro ⟨depth, run⟩
    exact ⟨depth, nested_eq_evaluate run ended (Nat.le_refl _)⟩

end

end MiniLisp
