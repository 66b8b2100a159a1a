import Mathlib.Data.List.Forall2
import Mathlib.Order.Basic
import MiniLisp.Proofs.Evaluation.Rules

/-! # Two evaluations side by side

Two evaluations of the same depth go through the same steps when the values that they are given are
of the same form, their frames bind what is needed, and so on with everything that either of them
comes upon. `Relations` says what is the same to the two: stores, values, code in a frame and
errors. A `Simulation` is a choice of relations that every single step keeps, and
`Simulation.evaluate` concludes that whole evaluations keep them.
-/

namespace MiniLisp

/-- Values of one kind, which are the same value if that kind is looked into. -/
inductive Value.Alike : Value → Value → Prop where
  | number : Alike (.number n) (.number n)
  | boolean : Alike (.boolean b) (.boolean b)
  | builtin : Alike (.builtin b) (.builtin b)
  | symbol : Alike (.symbol x) (.symbol y)
  | list : Alike (.list items) (.list others)
  | closure : Alike (.closure params body frame) (.closure params' body' frame')
  | foreign : Alike (.foreign v) (.foreign v')

theorem Value.Alike.refl (v : Value) : v.Alike v := by
  cases v <;> constructor

/-- The only world of two evaluations that have nothing to agree on as they go. -/
inductive OneWorld where
  | world

instance : Preorder OneWorld where
  le _ _ := True
  le_refl _ := trivial
  le_trans _ _ _ _ _ := trivial

/-- What is taken to be the same in two evaluations. A world holds what the two have agreed on so
far, such as which frames stand for each other. -/
structure Relations (W : Type) where
  stores : W → Store → Store → Prop
  values : W → Value → Value → Prop
  /-- The first value in the first frame against the second value in the second frame. -/
  code : W → Value → FrameId → Value → FrameId → Prop
  errors : Error → Error → Prop

namespace Relations

variable {W α β : Type}

inductive Outcomes (R : Relations W) (related : α → β → Prop) :
    Except Error α → Except Error β → Prop where
  | ok (same : related a b) : Outcomes R related (.ok a) (.ok b)
  | error (same : R.errors e e') : Outcomes R related (.error e) (.error e')

/-- The two values are evaluated by the same rule, on parts that are related again. Only where the
first is a symbol the second may be the value that it is bound to. -/
inductive Step [LE W] (R : Relations W) (w : W) : Value → FrameId → Value → FrameId → Prop where
  | symbol (found : ∀ {s s'}, R.stores w s s' →
        R.Outcomes (R.values w) (s.lookup i x) (s'.lookup i' x')) :
      Step R w (.symbol x) i (.symbol x') i'
  | known (atom : c.IsAtom) (found : ∀ {s s'}, R.stores w s s' →
        ∃ v, s.lookup i x = .ok v ∧ R.values w v c) :
      Step R w (.symbol x) i c i'
  | atom (atom : c.IsAtom) : Step R w c i c i'
  | closure : Step R w (.closure params body outer) i (.closure params' body' outer') i'
  | foreign : Step R w (.foreign v) i (.foreign v) i'
  | empty : Step R w (.list []) i (.list []) i'
  | operandCount (keyword : head.keyword? = some k) (keyword' : head'.keyword? = some k)
      (wrong : forms.length ≠ k.operandCount) (same : forms.length = forms'.length) :
      Step R w (.list (head :: forms)) i (.list (head' :: forms')) i'
  | conditional (keyword : head.keyword? = some .conditional)
      (keyword' : head'.keyword? = some .conditional) (tested : R.code w test i test' i')
      (first : R.code w yes i yes' i') (second : R.code w no i no' i') :
      Step R w (.list [head, test, yes, no]) i (.list [head', test', yes', no']) i'
  | target (keyword : head.keyword? = some .definition)
      (keyword' : head'.keyword? = some .definition) (noSymbol : ∀ x, target ≠ .symbol x)
      (noSymbol' : ∀ x, target' ≠ .symbol x)
      (same : R.errors (.badTarget target) (.badTarget target')) :
      Step R w (.list [head, target, form]) i (.list [head', target', form']) i'
  | definition (keyword : head.keyword? = some .definition)
      (keyword' : head'.keyword? = some .definition) (evaluated : R.code w form i form' i')
      (bound : ∀ {w' s s' v v'}, w ≤ w' → R.stores w' s s' → R.values w' v v' →
        R.stores w' (s.bind i x v) (s'.bind i' x' v') ∧ R.values w' (.symbol x) (.symbol x')) :
      Step R w (.list [head, .symbol x, form]) i (.list [head', .symbol x', form']) i'
  | abstraction (keyword : head.keyword? = some .abstraction)
      (keyword' : head'.keyword? = some .abstraction)
      (same : R.values w (.closure params body i) (.closure params' body' i')) :
      Step R w (.list [head, params, body]) i (.list [head', params', body']) i'
  | application (plain : head.keyword? = none) (plain' : head'.keyword? = none)
      (first : R.code w head i head' i')
      (rest : List.Forall₂ (fun form form' => R.code w form i form' i') forms forms') :
      Step R w (.list (head :: forms)) i (.list (head' :: forms')) i'

/-- Forms of one keyword, or two applications, of related parts. -/
theorem Step.list [LE W] {R : Relations W} {w : W} {head head' : Value} {forms forms' : List Value}
    {i i' : FrameId} (same : head'.keyword? = head.keyword?)
    (first : head.keyword? = none → R.code w head i head' i')
    (rest : List.Forall₂ (fun form form' => R.code w form i form' i') forms forms')
    (definition : ∀ {target form target' form'}, forms = [target, form] →
      forms' = [target', form'] →
      (∃ x x', target = .symbol x ∧ target' = .symbol x' ∧ ∀ {w' s s' v v'}, w ≤ w' →
        R.stores w' s s' → R.values w' v v' →
          R.stores w' (s.bind i x v) (s'.bind i' x' v') ∧ R.values w' (.symbol x) (.symbol x')) ∨
      (∀ x, target ≠ .symbol x) ∧ (∀ x, target' ≠ .symbol x) ∧
        R.errors (.badTarget target) (.badTarget target'))
    (abstraction : ∀ {params body params' body'}, forms = [params, body] →
      forms' = [params', body'] →
      R.values w (.closure params body i) (.closure params' body' i')) :
    R.Step w (.list (head :: forms)) i (.list (head' :: forms')) i' := by
  cases keyword : head.keyword? with
  | none => exact .application keyword (same.trans keyword) (first keyword) rest
  | some k =>
      have keyword' := same.trans keyword
      by_cases right : forms.length = k.operandCount
      · cases k with
        | conditional =>
            obtain ⟨test, yes, no, rfl⟩ := List.length_eq_three.mp right
            cases rest with
            | cons tested rest =>
                cases rest with
                | cons first rest =>
                    cases rest with
                    | cons second rest =>
                        cases rest
                        exact .conditional keyword keyword' tested first second
        | definition =>
            obtain ⟨target, form, rfl⟩ := List.length_eq_two.mp right
            obtain ⟨target', form', rfl⟩ := List.length_eq_two.mp (rest.length_eq ▸ right)
            obtain ⟨x, x', rfl, rfl, bound⟩ | ⟨noSymbol, noSymbol', errors⟩ := definition rfl rfl
            · cases rest with
              | cons _ rest =>
                  cases rest with
                  | cons evaluated => exact .definition keyword keyword' evaluated bound
            · exact .target keyword keyword' noSymbol noSymbol' errors
        | abstraction =>
            obtain ⟨params, body, rfl⟩ := List.length_eq_two.mp right
            obtain ⟨params', body', rfl⟩ := List.length_eq_two.mp (rest.length_eq ▸ right)
            exact .abstraction keyword keyword' (abstraction rfl rfl)
      · exact .operandCount keyword keyword' right rest.length_eq

/-- A value takes the same step as itself, if its parts are related to themselves. -/
theorem Step.refl [LE W] {R : Relations W} {w : W} {expr : Value} {i i' : FrameId}
    (errors : ∀ e, R.errors e e)
    (symbol : ∀ {x s s'}, expr = .symbol x → R.stores w s s' →
      R.Outcomes (R.values w) (s.lookup i x) (s'.lookup i' x))
    (first : ∀ {head forms}, expr = .list (head :: forms) → head.keyword? = none →
      R.code w head i head i')
    (rest : ∀ {head forms}, expr = .list (head :: forms) →
      ∀ form ∈ forms, R.code w form i form i')
    (definition : ∀ {head x form}, expr = .list [head, .symbol x, form] →
      ∀ {w' s s' v v'}, w ≤ w' → R.stores w' s s' → R.values w' v v' →
        R.stores w' (s.bind i x v) (s'.bind i' x v') ∧ R.values w' (.symbol x) (.symbol x))
    (abstraction : ∀ {head params body}, expr = .list [head, params, body] →
      R.values w (.closure params body i) (.closure params body i')) :
    R.Step w expr i expr i' := by
  cases expr with
  | number n => exact .atom .number
  | boolean b => exact .atom .boolean
  | builtin b => exact .atom .builtin
  | symbol x => exact .symbol (symbol rfl)
  | closure => exact .closure
  | foreign => exact .foreign
  | list items =>
      cases items with
      | nil => exact .empty
      | cons head forms =>
          refine .list rfl (first rfl) (List.forall₂_same.mpr (rest rfl)) ?_ ?_
          · intro target form target' form' two two'
            subst two
            cases two'
            by_cases named : ∃ x, target = .symbol x
            · obtain ⟨x, rfl⟩ := named
              exact .inl ⟨x, x, rfl, rfl, definition rfl⟩
            · have noSymbol : ∀ x, target ≠ .symbol x := fun x same => named ⟨x, same⟩
              exact .inr ⟨noSymbol, noSymbol, errors _⟩
          · intro params body params' body' two two'
            subst two
            cases two'
            exact abstraction rfl

end Relations

/-- Relations that every step of evaluation keeps. -/
structure Simulation (W : Type) [Preorder W] extends Relations W where
  values_mono : w ≤ w' → values w v v' → values w' v v'
  code_mono : w ≤ w' → code w expr i expr' i' → code w' expr i expr' i'
  atom : Value.IsAtom c → values w c c
  alike : values w v v' → v.Alike v'
  step : code w expr i expr' i' → toRelations.Step w expr i expr' i'
  arity : values w (.closure params body outer) (.closure params' body' outer') →
    params.formals?.map List.length = params'.formals?.map List.length
  call : values w (.closure params body outer) (.closure params' body' outer') → stores w s s' →
    List.Forall₂ (values w) args args' → s.openCall outer params args = (.ok i, t) →
    s'.openCall outer' params' args' = (.ok i', t') →
    ∃ w', w ≤ w' ∧ stores w' t t' ∧ code w' body i body' i'
  errors_refl : ∀ e, errors e e
  errors_depth : errors e e' → e.depth = e'.depth
  /-- Errors that show related values are related. -/
  errors_shown : values w v v' → errors (.notBoolean v) (.notBoolean v') ∧
    errors (.notFunction v) (.notFunction v') ∧ ∀ b, errors (.notNumber b v) (.notNumber b v')

theorem Value.checkArity_congr {params params' : Value} {provided : Int}
    (same : params.formals?.map List.length = params'.formals?.map List.length) :
    params.checkArity provided = params'.checkArity provided := by
  unfold checkArity
  cases found : params.formals? <;> cases found' : params'.formals? <;> simp_all

namespace Simulation

variable {W : Type} [Preorder W] (M : Simulation W)

/-- From related stores the two computations lead to related outcomes and again to related stores,
in a world that is the same or a later one. -/
def Simulates {α β : Type} (w : W) (related : W → α → β → Prop) (m : Eval α) (m' : Eval β) : Prop :=
  ∀ ⦃s s' : Store⦄, M.stores w s s' → ∃ w', w ≤ w' ∧
    M.stores w' (m.run.run s).2 (m'.run.run s').2 ∧
    M.Outcomes (related w') (m.run.run s).1 (m'.run.run s').1

section

variable {M} {α β γ δ : Type} {w : W} {related : W → α → β → Prop} {further : W → γ → δ → Prop}

theorem ofPure {a : α} {b : β} (same : related w a b) :
    M.Simulates w related (pure a) (pure b) :=
  fun _ _ stores => ⟨w, le_refl w, stores, .ok same⟩

theorem ofThrow {e e' : Error} (same : M.errors e e') :
    M.Simulates w related (throw e) (throw e') :=
  fun _ _ stores => ⟨w, le_refl w, stores, .error same⟩

theorem raise {e e' : Error} (depth : Nat) (same : M.errors e e') :
    M.Simulates w related (Eval.raise depth e) (Eval.raise depth e') := by
  unfold Eval.raise
  rw [← M.errors_depth same]
  split
  · exact ofThrow same
  · exact ofThrow (M.errors_refl .tooDeep)

theorem bind {m : Eval α} {m' : Eval β} {next : α → Eval γ} {next' : β → Eval δ}
    (first : M.Simulates w related m m')
    (rest : ∀ {w' a b}, w ≤ w' → related w' a b → M.Simulates w' further (next a) (next' b)) :
    M.Simulates w further (m >>= next) (m' >>= next') := by
  intro s s' stores
  obtain ⟨w', later, stores, outcomes⟩ := first stores
  cases run : m.run.run s with
  | mk outcome t =>
      cases run' : m'.run.run s' with
      | mk outcome' t' =>
          rw [run, run'] at stores outcomes
          cases outcomes with
          | ok same =>
              rw [Eval.run_bind_of_ok run, Eval.run_bind_of_ok run']
              obtain ⟨w'', evenLater, stores, outcomes⟩ := rest later same stores
              exact ⟨w'', le_trans later evenLater, stores, outcomes⟩
          | error same =>
              rw [Eval.run_bind_of_error run, Eval.run_bind_of_error run']
              exact ⟨w', later, stores, .error same⟩

theorem lookup {i i' : FrameId} {x x' : Symbol} (found : ∀ {s s'}, M.stores w s s' →
      M.Outcomes (M.values w) (s.lookup i x) (s'.lookup i' x')) :
    M.Simulates w M.values (Eval.lookup i x) (Eval.lookup i' x') := by
  intro s s' stores
  rw [Eval.run_lookup_eq, Eval.run_lookup_eq]
  exact ⟨w, le_refl w, stores, found stores⟩

/-- A name in the one evaluation, and in the other the atom that it is bound to. -/
theorem known {i : FrameId} {x : Symbol} {c : Value} (found : ∀ {s s'}, M.stores w s s' →
      ∃ v, s.lookup i x = .ok v ∧ M.values w v c) :
    M.Simulates w M.values (Eval.lookup i x) (pure c) := by
  intro s s' stores
  obtain ⟨v, value, same⟩ := found stores
  rw [Eval.run_lookup_eq, value]
  exact ⟨w, le_refl w, stores, .ok same⟩

theorem openCall {params body params' body' : Value} {outer outer' : FrameId}
    {args args' : List Value}
    (function : M.values w (.closure params body outer) (.closure params' body' outer'))
    (arguments : List.Forall₂ (M.values w) args args') :
    M.Simulates w (fun w i i' => M.code w body i body' i') (Eval.openCall outer params args)
      (Eval.openCall outer' params' args') := by
  intro s s' stores
  change ∃ w', _ ∧ M.stores w' (s.openCall outer params args).2
    (s'.openCall outer' params' args').2 ∧ M.Outcomes _ (s.openCall outer params args).1
      (s'.openCall outer' params' args').1
  have arity := M.arity function
  have count := arguments.length_eq
  cases found : params.formals? with
  | none =>
      cases found' : params'.formals? with
      | none =>
          simp only [Store.openCall, found, found']
          exact ⟨w, le_refl w, stores, .error (M.errors_refl _)⟩
      | some formals' => simp [found, found'] at arity
  | some formals =>
      cases found' : params'.formals? with
      | none => simp [found, found'] at arity
      | some formals' =>
          have arity : formals.length = formals'.length := by simpa [found, found'] using arity
          by_cases enough : formals.length = args.length
          · obtain ⟨i, t, opened⟩ := s.openCall_exists outer found enough
            obtain ⟨i', t', opened'⟩ := s'.openCall_exists outer' found' (arity ▸ count ▸ enough)
            obtain ⟨w', later, stores, code⟩ := M.call function stores arguments opened opened'
            rw [opened, opened']
            exact ⟨w', later, stores, .ok code⟩
          · have enough' : ¬ formals'.length = args'.length := by omega
            simp only [Store.openCall, found, found', if_neg enough', arity, count]
            exact ⟨w, le_refl w, stores, .error (M.errors_refl _)⟩

end

theorem numbers_alike {w : W} (b : Builtin) {args args' : List Value}
    (arguments : List.Forall₂ (M.values w) args args') :
    (∃ xs, b.numbers args = .ok xs ∧ b.numbers args' = .ok xs) ∨
      ∃ e e', b.numbers args = .error e ∧ b.numbers args' = .error e' ∧ M.errors e e' := by
  induction arguments with
  | nil => exact .inl ⟨[], rfl, rfl⟩
  | @cons v v' args args' same _ ih =>
      have shown := (M.errors_shown same).2.2 b
      cases M.alike same with
      | @number n =>
          simp only [Builtin.numbers]
          obtain ⟨xs, first, second⟩ | ⟨e, e', first, second, related⟩ := ih
          · rw [first, second]
            exact .inl ⟨n :: xs, rfl, rfl⟩
          · rw [first, second]
            exact .inr ⟨e, e', rfl, rfl, related⟩
      | boolean | builtin | symbol | list | closure | foreign =>
          exact .inr ⟨_, _, rfl, rfl, shown⟩

/-- A builtin computes on numbers, and related numbers are equal. -/
theorem call_alike {w : W} (b : Builtin) {args args' : List Value}
    (arguments : List.Forall₂ (M.values w) args args') :
    (∃ v, b.call args = .ok v ∧ b.call args' = .ok v ∧ M.values w v v) ∨
      ∃ e e', b.call args = .error e ∧ b.call args' = .error e' ∧ M.errors e e' := by
  unfold Builtin.call
  obtain ⟨xs, first, second⟩ | ⟨e, e', first, second, related⟩ := M.numbers_alike b arguments
  · rw [first, second]
    cases computed : b.compute xs with
    | ok v => exact .inl ⟨v, computed, computed, M.atom (Builtin.compute_isAtom computed)⟩
    | error e => exact .inr ⟨e, e, computed, computed, M.errors_refl e⟩
  · rw [first, second]
    exact .inr ⟨e, e', rfl, rfl, related⟩

/-- All evaluations of less depth than `limit` simulate each other. -/
def Below (limit : Nat) : Prop :=
  ∀ {depth}, depth < limit → ∀ {w expr i expr' i'}, M.code w expr i expr' i' →
    M.Simulates w M.values (evaluate depth expr i) (evaluate depth expr' i')

section

variable {M} {limit depth : Nat} {w : W} {i i' : FrameId}
variable (simulates : M.Below limit) (below : depth ≤ limit)
include simulates below

theorem evaluateAll {forms forms' : List Value}
    (same : List.Forall₂ (fun form form' => M.code w form i form' i') forms forms') :
    M.Simulates w (fun w => List.Forall₂ (M.values w)) (evaluateAll depth forms i)
      (evaluateAll depth forms' i') := by
  match depth with
  | 0 | 1 => exact ofThrow (M.errors_refl _)
  | depth + 2 =>
      unfold MiniLisp.evaluateAll
      -- The later forms are evaluated in later worlds than the one in which they are related.
      suffices every : ∀ w', w ≤ w' → M.Simulates w' (fun w => List.Forall₂ (M.values w))
          (forms.mapM fun form => evaluate depth form i)
          (forms'.mapM fun form => evaluate depth form i') from every w (le_refl w)
      induction same with
      | nil => exact fun _ _ => ofPure .nil
      | cons first _ ih =>
          intro w' later
          rw [List.mapM_cons, List.mapM_cons]
          refine bind (simulates (by omega) (M.code_mono later first)) fun next value => ?_
          refine bind (ih _ (le_trans later next)) fun last values => ?_
          exact ofPure (.cons (M.values_mono last value) values)

theorem applyClosure {params body params' body' : Value} {outer outer' : FrameId}
    {forms forms' : List Value}
    (function : M.values w (.closure params body outer) (.closure params' body' outer'))
    (same : List.Forall₂ (fun form form' => M.code w form i form' i') forms forms') :
    M.Simulates w M.values (applyClosure depth params body outer forms i)
      (applyClosure depth params' body' outer' forms' i') := by
  match depth with
  | 0 => exact ofThrow (M.errors_refl _)
  | depth + 1 =>
      unfold MiniLisp.applyClosure
      rw [Value.checkArity_congr (M.arity function), same.length_eq]
      split
      · exact ofThrow (M.errors_refl _)
      · refine bind (evaluateAll simulates (by omega) same) fun later arguments => ?_
        refine bind (openCall (M.values_mono later function) arguments) fun _ code => ?_
        exact simulates (by omega) code

theorem apply {function function' : Value} {forms forms' : List Value}
    (related : M.values w function function')
    (same : List.Forall₂ (fun form form' => M.code w form i form' i') forms forms') :
    M.Simulates w M.values (apply depth function forms i) (apply depth function' forms' i') := by
  match depth with
  | 0 => exact ofThrow (M.errors_refl _)
  | depth + 1 =>
      have shown := (M.errors_shown related).2.1
      cases M.alike related with
      | builtin =>
          refine bind (evaluateAll simulates (by omega) same) fun later arguments => ?_
          rename_i b w' args args'
          obtain ⟨v, first, second, same⟩ | ⟨e, e', first, second, same⟩ := M.call_alike b arguments
          · rw [first, second]
            exact ofPure same
          · rw [first, second]
            exact raise depth same
      | closure => exact applyClosure simulates (by omega) related same
      | number | boolean | symbol | list | foreign => exact raise depth shown

theorem conditional {test yes no test' yes' no' : Value} (tested : M.code w test i test' i')
    (first : M.code w yes i yes' i') (second : M.code w no i no' i') :
    M.Simulates w M.values (evaluateForm depth .conditional [test, yes, no] i)
      (evaluateForm depth .conditional [test', yes', no'] i') := by
  match depth with
  | 0 => exact ofThrow (M.errors_refl _)
  | depth + 1 =>
      rw [evaluateForm, evaluateForm]
      refine bind (simulates (by omega) tested) fun later value => ?_
      have shown := (M.errors_shown value).1
      cases M.alike value with
      | @boolean b =>
          cases b with
          | true => exact simulates (by omega) (M.code_mono later first)
          | false => exact simulates (by omega) (M.code_mono later second)
      | number | builtin | symbol | list | closure | foreign => exact raise depth shown

theorem definition {x x' : Symbol} {form form' : Value} (evaluated : M.code w form i form' i')
    (bound : ∀ {w' s s' v v'}, w ≤ w' → M.stores w' s s' → M.values w' v v' →
      M.stores w' (s.bind i x v) (s'.bind i' x' v') ∧ M.values w' (.symbol x) (.symbol x')) :
    M.Simulates w M.values (evaluateForm depth .definition [.symbol x, form] i)
      (evaluateForm depth .definition [.symbol x', form'] i') := by
  match depth with
  | 0 => exact ofThrow (M.errors_refl _)
  | depth + 1 =>
      rw [evaluateForm, evaluateForm]
      refine bind (simulates (by omega) evaluated) fun {w' v v'} later value => ?_
      intro s s' stores
      obtain ⟨written, answer⟩ := bound later stores value
      exact ⟨w', le_refl w', written, .ok answer⟩

omit simulates below in
theorem target {target form target' form' : Value} (noSymbol : ∀ x, target ≠ .symbol x)
    (noSymbol' : ∀ x, target' ≠ .symbol x)
    (same : M.errors (.badTarget target) (.badTarget target')) :
    M.Simulates w M.values (evaluateForm depth .definition [target, form] i)
      (evaluateForm depth .definition [target', form'] i') := by
  match depth with
  | 0 => exact ofThrow (M.errors_refl _)
  | depth + 1 =>
      rw [evaluateForm_target noSymbol, evaluateForm_target noSymbol']
      exact raise depth same

omit simulates below in
theorem abstraction {params body params' body' : Value}
    (same : M.values w (.closure params body i) (.closure params' body' i')) :
    M.Simulates w M.values (evaluateForm depth .abstraction [params, body] i)
      (evaluateForm depth .abstraction [params', body'] i') := by
  match depth with
  | 0 => exact ofThrow (M.errors_refl _)
  | depth + 1 => exact ofPure same

omit simulates below in
theorem operandCount {k : Keyword} {forms forms' : List Value}
    (wrong : forms.length ≠ k.operandCount) (same : forms.length = forms'.length) :
    M.Simulates w M.values (evaluateForm depth k forms i) (evaluateForm depth k forms' i') := by
  match depth with
  | 0 => exact ofThrow (M.errors_refl _)
  | depth + 1 =>
      rw [evaluateForm_wrong wrong, evaluateForm_wrong (same ▸ wrong), same]
      exact ofThrow (M.errors_refl _)

end

theorem below_all (limit : Nat) : M.Below limit := by
  -- On the limit and not on the depth, since arguments are evaluated two steps further down.
  induction limit with
  | zero => exact fun below => absurd below (Nat.not_lt_zero _)
  | succ limit simulates =>
      intro depth below w expr i expr' i' code
      match depth with
      | 0 => exact ofThrow (M.errors_refl _)
      | depth + 1 =>
          cases M.step code with
          | symbol found => exact lookup found
          | known atom found => cases atom <;> exact known found
          | atom atom =>
              have same := M.atom (w := w) atom
              cases atom <;> exact ofPure same
          | closure | foreign | empty => exact ofThrow (M.errors_refl _)
          | operandCount keyword keyword' wrong same =>
              rw [evaluate_form keyword, evaluate_form keyword']
              exact operandCount wrong same
          | conditional keyword keyword' tested first second =>
              rw [evaluate_form keyword, evaluate_form keyword']
              exact conditional simulates (by omega) tested first second
          | target keyword keyword' noSymbol noSymbol' same =>
              rw [evaluate_form keyword, evaluate_form keyword']
              exact target noSymbol noSymbol' same
          | definition keyword keyword' evaluated bound =>
              rw [evaluate_form keyword, evaluate_form keyword']
              exact definition simulates (by omega) evaluated bound
          | abstraction keyword keyword' same =>
              rw [evaluate_form keyword, evaluate_form keyword']
              exact abstraction same
          | application plain plain' first rest =>
              rw [evaluate_application plain, evaluate_application plain']
              refine bind (simulates (by omega) first) fun later function => ?_
              exact apply simulates (by omega) function
                (rest.imp fun _ _ code => M.code_mono later code)

/-- Related code has related outcomes and leaves related stores, whatever the depth. -/
theorem evaluate {w : W} {expr expr' : Value} {i i' : FrameId} {s s' : Store}
    (code : M.code w expr i expr' i') (stores : M.stores w s s') (depth : Nat) :
    ∃ w', w ≤ w' ∧ M.stores w' ((MiniLisp.evaluate depth expr i).run.run s).2
        ((MiniLisp.evaluate depth expr' i').run.run s').2 ∧
      M.Outcomes (M.values w') ((MiniLisp.evaluate depth expr i).run.run s).1
        ((MiniLisp.evaluate depth expr' i').run.run s').1 :=
  M.below_all (depth + 1) (Nat.lt_succ_self depth) code stores

end Simulation

end MiniLisp
