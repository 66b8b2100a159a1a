import MiniLisp.Proofs.Arithmetic
import MiniLisp.Proofs.Evaluation.Nesting
import MiniLisp.Proofs.Store.Rooted

namespace MiniLisp

/-- A list in the code starts with the keyword of abstractions. -/
inductive Value.Abstracts : Value → Prop where
  | here (keyword : head.keyword? = some .abstraction) : Abstracts (.list (head :: forms))
  | item (member : v ∈ items) (inside : v.Abstracts) : Abstracts (.list items)

inductive Value.IsClosure : Value → Prop where
  | closure : IsClosure (.closure params body frame)

theorem Value.not_abstracts_cons {head : Value} {forms : List Value}
    (other : head.keyword? ≠ some .abstraction) (inside : ∀ v ∈ head :: forms, ¬ v.Abstracts) :
    ¬ (Value.list (head :: forms)).Abstracts
  | .here keyword => other keyword
  | .item member within => inside _ member within

theorem Value.nesting_le_nestingAll {v : Value} {items : List Value} (member : v ∈ items) :
    v.nesting ≤ nestingAll items := by
  induction items with
  | nil => contradiction
  | cons w items ih =>
      rw [nestingAll]
      cases member with
      | head => exact Nat.le_max_left ..
      | tail _ later => exact Nat.le_trans (ih later) (Nat.le_max_right ..)

theorem Value.nesting_lt_list {v : Value} {items : List Value} (member : v ∈ items) :
    v.nesting < (Value.list items).nesting := by
  rw [nesting]
  exact Nat.lt_succ_of_le (nesting_le_nestingAll member)

namespace Store

/-- The frames from `frame` outward bind nothing but values with the property. -/
def BindsAlong (s : Store) (frame : FrameId) (P : Value → Prop) : Prop :=
  ∀ i ∈ s.chain frame, ∀ x v, s.binding? i x = some v → P v

/-- No frame is added, the way outward stays, and what is bound along it has the property. -/
structure Keeps (s t : Store) (frame : FrameId) (P : Value → Prop) : Prop where
  size : t.frames.size = s.frames.size
  chain : t.chain frame = s.chain frame
  binds : t.BindsAlong frame P

section

variable {s t u : Store} {frame : FrameId} {x : Symbol} {v : Value} {P : Value → Prop}

theorem BindsAlong.keeps (binds : s.BindsAlong frame P) : s.Keeps s frame P :=
  ⟨rfl, rfl, binds⟩

theorem Keeps.trans (first : s.Keeps t frame P) (second : t.Keeps u frame P) :
    s.Keeps u frame P :=
  ⟨second.size.trans first.size, second.chain.trans first.chain, second.binds⟩

theorem BindsAlong.mono {Q : Value → Prop} (binds : s.BindsAlong frame P)
    (weaker : ∀ v, P v → Q v) : s.BindsAlong frame Q :=
  fun i onWay x v bound => weaker v (binds i onWay x v bound)

theorem BindsAlong.lookup (binds : s.BindsAlong frame P) (found : s.lookup frame x = .ok v) :
    P v := by
  obtain ⟨i, ⟨before, after, way, _⟩, bound⟩ := lookup?_eq_some_iff.mp (lookup_eq_ok_iff.mp found)
  exact binds i (by simp [way]) x v bound

theorem BindsAlong.bind (binds : s.BindsAlong frame P) (new : P v) :
    (s.bind frame x v).BindsAlong frame P := by
  intro i onWay y w bound
  rw [chain_bind] at onWay
  by_cases within : frame < s.frames.size
  · rw [binding?_bind within] at bound
    split at bound
    · cases bound
      exact new
    · exact binds i onWay y w bound
  · have same : (s.bind frame x v).binding? i y = s.binding? i y := by
      rw [binding?, frames_bind_absent within, binding?]
    exact binds i onWay y w (same ▸ bound)

theorem Keeps.bind (keeps : s.Keeps t frame P) (new : P v) :
    s.Keeps (t.bind frame x v) frame P where
  size := (size_bind ..).trans keeps.size
  chain := (chain_bind ..).trans keeps.chain
  binds := keeps.binds.bind new

end

theorem bindsAlong_install :
    ((allocate {} none).2.install 0).BindsAlong 0 fun v => ∃ b, v = .builtin b := by
  have builtins : ((allocate {} none).2.install 0).Binds fun _ v => ∃ b, v = .builtin b :=
    install_induction (Binds.empty.allocate none) fun _ b holds => holds.bind ⟨b, rfl⟩
  intro i _ x v bound
  obtain ⟨frame, present, member⟩ := entry_of_binding? bound
  exact builtins i frame present x v member

end Store

/-- A property of all values that code without abstractions can come to. -/
structure FirstOrder (P : Value → Prop) : Prop where
  atom : v.IsAtom → P v
  symbol : P (.symbol x)
  noClosure : P v → ¬ v.IsClosure

/-- The value that an error shows has the property, or else it stands in code of less nesting. -/
def Error.Shows (P : Value → Prop) (nesting : Nat) (e : Error) : Prop :=
  ∀ v, e.shown? = some v → P v ∨ v.nesting < nesting

/-- What code of some nesting comes to: values with the property, or an error that shows one. -/
def Settles {α : Type} (P : Value → Prop) (Q : α → Prop) (nesting : Nat) : Except Error α → Prop
  | .ok a => Q a
  | .error e => e.Shows P nesting

section

variable {P : Value → Prop}

theorem Error.Shows.mono {low high : Nat} {e : Error} (shows : e.Shows P low)
    (higher : low ≤ high) : e.Shows P high :=
  fun v shown => (shows v shown).imp_right fun below => Nat.lt_of_lt_of_le below higher

theorem Settles.ofItem {v : Value} {items : List Value} {outcome : Except Error Value}
    (settles : Settles P P v.nesting outcome) (member : v ∈ items) :
    Settles P P (Value.list items).nesting outcome := by
  cases outcome with
  | ok a => exact settles
  | error e => exact Error.Shows.mono settles (Nat.le_of_lt (Value.nesting_lt_list member))

theorem Settles.ofForms {head : Value} {forms : List Value} {e : Error}
    {Q : List Value → Prop} (settles : Settles P Q (Value.nestingAll forms) (.error e)) :
    Settles P P (Value.list (head :: forms)).nesting (.error e) :=
  Error.Shows.mono settles (Nat.le_succ_of_le (Nat.le_max_right ..))

theorem Settles.cons {v : Value} {low high : Nat} {outcome : Except Error (List Value)}
    (first : P v) (rest : Settles P (fun args => ∀ w ∈ args, P w) low outcome)
    (higher : low ≤ high) :
    Settles P (fun args => ∀ w ∈ args, P w) high (outcome.map (v :: ·)) := by
  cases outcome with
  | error e => exact Error.Shows.mono rest higher
  | ok args => exact List.forall_mem_cons.mpr ⟨first, rest⟩

theorem Settles.lookup {s : Store} {frame : FrameId} (binds : s.BindsAlong frame P) (x : Symbol)
    (nesting : Nat) : Settles P P nesting (s.lookup frame x) := by
  cases found : s.lookup frame x with
  | ok v => exact binds.lookup found
  | error e =>
      cases Store.lookup_eq_error found
      exact nofun

theorem Settles.refused {expr : Value} {e : Error} (reason : Refused expr e) :
    Settles P P expr.nesting (.error e) := by
  cases reason with
  | tooDeep | closure | foreign | empty | operandCount => exact nofun
  | target =>
      intro v shown
      cases shown
      exact .inr (Value.nesting_lt_list (by simp))

theorem Settles.inapplicable (simple : FirstOrder P) {function : Value} {count nesting : Nat}
    {e : Error} (reason : Inapplicable function count e) (returned : P function) :
    Settles P P nesting (.error e) := by
  cases reason with
  | tooDeep => exact nofun
  | notFunction =>
      intro v shown
      cases shown
      exact .inl returned
  | arity => exact absurd .closure (simple.noClosure returned)

theorem Settles.call (simple : FirstOrder P) {b : Builtin} {args : List Value} {nesting : Nat}
    (returned : ∀ v ∈ args, P v) : Settles P P nesting (b.call args) := by
  cases called : b.call args with
  | ok v => exact simple.atom (Builtin.call_isAtom called)
  | error e =>
      cases Builtin.outcome_iff.mpr called with
      | notNumber =>
          intro v shown
          cases shown
          exact .inl (returned _ (by simp))
      | tooFew | divisionByZero => exact nofun

mutual

/-- What code without abstractions comes to, and what it keeps, also when it fails. -/
theorem Evaluates.firstOrder (simple : FirstOrder P) : Evaluates expr frame s outcome t →
    ¬ expr.Abstracts → s.BindsAlong frame P → s.Keeps t frame P ∧ Settles P P expr.nesting outcome
  | .refused reason, _, binds => ⟨binds.keeps, .refused reason⟩
  | .symbol, _, binds => ⟨binds.keeps, .lookup binds _ _⟩
  | .number, _, binds => ⟨binds.keeps, simple.atom .number⟩
  | .boolean, _, binds => ⟨binds.keeps, simple.atom .boolean⟩
  | .builtin, _, binds => ⟨binds.keeps, simple.atom .builtin⟩
  | .testFails _ tested, code, binds => by
      have ⟨kept, failed⟩ := tested.firstOrder simple (mt (.item (by simp)) code) binds
      exact ⟨kept, failed.ofItem (by simp)⟩
  | .notBoolean _ tested _ reason, code, binds => by
      have ⟨kept, result⟩ := tested.firstOrder simple (mt (.item (by simp)) code) binds
      obtain rfl | rfl := reason
      · refine ⟨kept, fun v shown => .inl ?_⟩
        cases shown
        exact result
      · exact ⟨kept, nofun⟩
  | .branch _ tested chosen, code, binds => by
      have ⟨kept, _⟩ := tested.firstOrder simple (mt (.item (by simp)) code) binds
      have ⟨after, settles⟩ :=
        chosen.firstOrder simple (mt (.item (by split <;> simp)) code) kept.binds
      exact ⟨kept.trans after, settles.ofItem (by split <;> simp)⟩
  | .valueFails _ evaluated, code, binds => by
      have ⟨kept, failed⟩ := evaluated.firstOrder simple (mt (.item (by simp)) code) binds
      exact ⟨kept, failed.ofItem (by simp)⟩
  | .definition _ evaluated, code, binds => by
      have ⟨kept, result⟩ := evaluated.firstOrder simple (mt (.item (by simp)) code) binds
      exact ⟨kept.bind result, simple.symbol⟩
  | .abstraction keyword, code, _ => absurd (.here keyword) code
  | .headFails _ first, code, binds => by
      have ⟨kept, failed⟩ := first.firstOrder simple (mt (.item (by simp)) code) binds
      exact ⟨kept, failed.ofItem (by simp)⟩
  | .inapplicable _ first reason, code, binds => by
      have ⟨kept, function⟩ := first.firstOrder simple (mt (.item (by simp)) code) binds
      exact ⟨kept, .inapplicable simple reason function⟩
  | .argumentsFail _ first arguments, code, binds => by
      have ⟨kept, _⟩ := first.firstOrder simple (mt (.item (by simp)) code) binds
      have ⟨after, failed⟩ := arguments.firstOrder simple
        (fun form member => mt (.item (List.mem_cons_of_mem _ member)) code) kept.binds
      exact ⟨kept.trans after, .ofForms failed⟩
  | .primitive _ first arguments result, code, binds => by
      have ⟨kept, _⟩ := first.firstOrder simple (mt (.item (by simp)) code) binds
      have ⟨after, args⟩ := arguments.firstOrder simple
        (fun form member => mt (.item (List.mem_cons_of_mem _ member)) code) kept.binds
      obtain rfl | rfl := result
      · exact ⟨kept.trans after, .call simple args⟩
      · exact ⟨kept.trans after, nofun⟩
  | .call _ first _ _ _, code, binds => by
      have ⟨_, function⟩ := first.firstOrder simple (mt (.item (by simp)) code) binds
      exact absurd .closure (simple.noClosure function)

theorem EvaluatesAll.firstOrder (simple : FirstOrder P) : EvaluatesAll forms frame s outcome t →
    (∀ v ∈ forms, ¬ v.Abstracts) → s.BindsAlong frame P →
    s.Keeps t frame P ∧ Settles P (fun args => ∀ v ∈ args, P v) (Value.nestingAll forms) outcome
  | .tooDeep, _, binds => ⟨binds.keeps, nofun⟩
  | .nil, _, binds => ⟨binds.keeps, List.forall_mem_nil _⟩
  | .firstFails first, code, binds => by
      have ⟨kept, failed⟩ := first.firstOrder simple (code _ List.mem_cons_self) binds
      exact ⟨kept, Error.Shows.mono failed (Nat.le_max_left ..)⟩
  | .cons first rest, code, binds => by
      have ⟨kept, result⟩ := first.firstOrder simple (code _ List.mem_cons_self) binds
      have ⟨after, settles⟩ :=
        rest.firstOrder simple (fun v member => code v (List.mem_cons_of_mem _ member)) kept.binds
      exact ⟨kept.trans after, .cons result settles (Nat.le_max_right ..)⟩

end

end

namespace Eval

/-- The computation is not cut off. -/
def Ends {α : Type} (m : Eval α) (s : Store) : Prop :=
  (m.run.run s).1 ≠ .error .tooDeep

namespace Ends

variable {α β : Type} {s : Store} {m : Eval α}

theorem ofPure (a : α) : Ends (pure a) s :=
  nofun

theorem ofThrow {e : Error} (other : e ≠ .tooDeep) : Ends (throw e : Eval α) s :=
  mt Except.error.inj other

theorem bind {next : α → Eval β} (first : Ends m s)
    (rest : ∀ a t, m.run.run s = (.ok a, t) → Ends (next a) t) : Ends (m >>= next) s := by
  unfold Ends at first
  cases run : m.run.run s with
  | mk result t =>
      rw [run] at first
      unfold Ends
      cases result with
      | error e =>
          rw [run_bind_of_error run]
          exact mt Except.error.inj (mt (congrArg Except.error) first)
      | ok a =>
          rw [run_bind_of_ok run]
          exact rest a t run

theorem lookup (frame : FrameId) (x : Symbol) : Ends (Eval.lookup frame x) s := by
  unfold Ends
  rw [run_lookup_eq]
  cases found : s.lookup frame x with
  | ok v => exact nofun
  | error e =>
      cases Store.lookup_eq_error found
      exact nofun

/-- Computations in a row end if each of them keeps what the next one needs. -/
theorem mapM {I : Store → Prop} {f : Value → Eval α} {values : List Value}
    (each : ∀ v ∈ values, ∀ s, I s → Ends (f v) s ∧ ∀ a t, (f v).run.run s = (.ok a, t) → I t)
    (holds : I s) : Ends (values.mapM f) s := by
  induction values generalizing s with
  | nil => exact .ofPure []
  | cons v rest ih =>
      have ⟨first, kept⟩ := each v List.mem_cons_self s holds
      rw [List.mapM_cons]
      refine first.bind fun a t run => ?_
      have later := ih (fun w member => each w (List.mem_cons_of_mem v member)) (kept a t run)
      exact later.bind fun others _ _ => .ofPure (a :: others)

end Ends

end Eval

open Eval

theorem Builtin.call_ne_tooDeep (b : Builtin) (args : List Value) :
    b.call args ≠ .error .tooDeep := by
  intro called
  cases Builtin.outcome_iff.mpr called

section

variable {P : Value → Prop} {inner : Value → FrameId → Eval Value} {n : Nat} {frame : FrameId}
variable (ends : ∀ form, ¬ form.Abstracts → form.nesting < n → ∀ s, s.BindsAlong frame P →
  Ends (inner form frame) s ∧
    ∀ v t, (inner form frame).run.run s = (.ok v, t) → P v ∧ t.BindsAlong frame P)
variable {forms : List Value} (code : ∀ v ∈ forms, ¬ v.Abstracts)
variable (nests : ∀ v ∈ forms, v.nesting < n)
variable {s : Store} (binds : s.BindsAlong frame P)
include ends code nests binds

theorem formBy_ends (k : Keyword) : Ends (formBy inner k forms frame) s := by
  by_cases right : forms.length = k.operandCount
  · cases k with
    | conditional =>
        obtain ⟨test, yes, no, rfl⟩ := List.length_eq_three.mp right
        have ⟨tested, after⟩ := ends test (code _ (by simp)) (nests _ (by simp)) s binds
        refine tested.bind fun v t run => ?_
        have ⟨_, binds⟩ := after v t run
        cases v with
        | boolean b =>
            have member : (if b then yes else no) ∈ [test, yes, no] := by split <;> simp
            exact (ends _ (code _ member) (nests _ member) t binds).1
        | number | symbol | list | builtin | closure | foreign => exact .ofThrow nofun
    | definition =>
        obtain ⟨target, form, rfl⟩ := List.length_eq_two.mp right
        have ⟨evaluated, _⟩ := ends form (code _ (by simp)) (nests _ (by simp)) s binds
        cases target with
        | symbol x =>
            refine evaluated.bind fun v t _ => ?_
            exact Ends.bind (m := Eval.bind frame x v) nofun fun _ _ _ => .ofPure _
        | number | boolean | list | builtin | closure | foreign => exact .ofThrow nofun
    | abstraction =>
        obtain ⟨params, body, rfl⟩ := List.length_eq_two.mp right
        exact .ofPure _
  · rw [formBy_wrong right]
    exact .ofThrow nofun

theorem applyBy_ends {function : Value} (noClosure : ¬ function.IsClosure) :
    Ends (applyBy inner function forms frame) s := by
  cases function with
  | builtin b =>
      have arguments : Ends (forms.mapM fun form => inner form frame) s :=
        Ends.mapM (I := (·.BindsAlong frame P)) (fun form member t binds =>
          have ⟨evaluated, after⟩ := ends form (code form member) (nests form member) t binds
          ⟨evaluated, fun v u run => (after v u run).2⟩) binds
      refine arguments.bind fun args _ _ => ?_
      cases called : b.call args with
      | ok v => exact .ofPure v
      | error e => exact .ofThrow fun same => b.call_ne_tooDeep args (same ▸ called)
  | closure => exact absurd .closure noClosure
  | number | boolean | symbol | list | foreign => exact .ofThrow nofun

end

section

variable {P : Value → Prop} (simple : FirstOrder P) {expr : Value} {frame : FrameId} {s : Store}
variable (code : ¬ expr.Abstracts) (binds : s.BindsAlong frame P)
include simple code binds

/-- By induction on the evaluations inside each other: only parts of the code are evaluated. -/
theorem nested_ends {n : Nat} (nests : expr.nesting < n) : Ends (nested n expr frame) s := by
  induction n generalizing expr s with
  | zero => contradiction
  | succ n ih =>
      have ends (form : Value) (code : ¬ form.Abstracts) (nests : form.nesting < n) (s : Store)
          (binds : s.BindsAlong frame P) : Ends (nested n form frame) s ∧
            ∀ v t, (nested n form frame).run.run s = (.ok v, t) →
              P v ∧ t.BindsAlong frame P := by
        refine ⟨ih code binds nests, fun v t run => ?_⟩
        have ⟨kept, result⟩ := (nested_evaluates run nofun).firstOrder simple code binds
        exact ⟨result, kept.binds⟩
      unfold nested evaluateBy
      cases expr with
      | symbol x => exact .lookup frame x
      | number | boolean | builtin => exact .ofPure _
      | closure | foreign => exact .ofThrow nofun
      | list items =>
          cases items with
          | nil => exact .ofThrow nofun
          | cons head forms =>
              have inside (v : Value) (member : v ∈ head :: forms) : v.nesting < n :=
                Nat.lt_of_lt_of_le (Value.nesting_lt_list member) (Nat.le_of_lt_succ nests)
              have parts (v : Value) (member : v ∈ head :: forms) : ¬ v.Abstracts :=
                mt (.item member) code
              have ⟨first, rest⟩ := List.forall_mem_cons.mp parts
              have ⟨shallow, others⟩ := List.forall_mem_cons.mp inside
              dsimp only
              cases head.keyword? with
              | some k => exact formBy_ends ends rest others binds k
              | none =>
                  have ⟨evaluated, after⟩ := ends head first shallow s binds
                  refine evaluated.bind fun function t run => ?_
                  have ⟨returned, binds⟩ := after function t run
                  exact applyBy_ends ends rest others binds (simple.noClosure returned)

end

theorem FirstOrder.notClosure : FirstOrder fun v => ¬ v.IsClosure where
  atom := by rintro _ ⟨⟩ <;> exact nofun
  symbol := nofun
  noClosure := id

theorem FirstOrder.shallow (m : Nat) : FirstOrder fun v => ¬ v.IsClosure ∧ v.nesting ≤ m where
  atom atom := ⟨FirstOrder.notClosure.atom atom, by cases atom <;> exact Nat.zero_le m⟩
  symbol := ⟨nofun, Nat.zero_le m⟩
  noClosure := And.left

theorem Settles.messageDepth_le {α : Type} {P : Value → Prop} {Q : α → Prop} {m nesting : Nat}
    {outcome : Except Error α} (shallow : ∀ v, P v → v.nesting ≤ m)
    (settles : Settles P Q nesting outcome) :
    messageDepth outcome ≤ Error.stepsPerLevel * max m nesting + 1 := by
  cases outcome with
  | ok a => exact Nat.zero_le _
  | error e =>
      change e.depth ≤ _
      unfold Error.depth
      cases shown : e.shown? with
      | none => exact Nat.zero_le _
      | some v =>
          have low : v.nesting ≤ max m nesting := by
            rcases settles v shown with returned | below
            · exact Nat.le_trans (shallow v returned) (Nat.le_max_left ..)
            · exact Nat.le_trans (Nat.le_of_lt below) (Nat.le_max_right ..)
          exact Nat.succ_le_succ (Nat.mul_le_mul_left Error.stepsPerLevel low)

section

variable {expr : Value} {frame : FrameId} {s : Store} (code : ¬ expr.Abstracts)
variable (binds : s.BindsAlong frame fun v => ¬ v.IsClosure)
include code binds

theorem exists_nested_outcome : ∃ outcome t, outcome ≠ .error .tooDeep ∧
    (nested (expr.nesting + 1) expr frame).run.run s = (outcome, t) := by
  have ends := nested_ends .notClosure code binds (Nat.lt_succ_self expr.nesting)
  exact ⟨_, _, ends, rfl⟩

theorem depth_le_of_cut {m depth : Nat} {u : Store} (shallow : s.BindsAlong frame (·.nesting ≤ m))
    (cut : (evaluate depth expr frame).run.run s = (.error .tooDeep, u)) :
    depth ≤ 5 * (expr.nesting + 1) + Error.stepsPerLevel * max m expr.nesting := by
  obtain ⟨outcome, t, ended, run⟩ := exists_nested_outcome code binds
  have both : s.BindsAlong frame fun v => ¬ v.IsClosure ∧ v.nesting ≤ m :=
    fun i onWay x v bound => ⟨binds i onWay x v bound, shallow i onWay x v bound⟩
  have ⟨_, settles⟩ := (nested_evaluates run ended).firstOrder (.shallow m) code both
  have message := settles.messageDepth_le fun v => And.right
  apply Classical.byContradiction
  intro deep
  rw [evaluate_eq_nested run ended (by omega)] at cut
  exact ended (Prod.mk.inj cut).1

end

/-- Code without abstractions, evaluated where no closure is bound, ends, with no more evaluations
inside each other than one for each level of nested lists and one for what stands innermost. Every
depth gives this outcome or cuts the evaluation off. It adds no frame and binds no closure. A depth
can be exceeded only by deep nesting, of the code or of what is bound, which messages can show; if
nothing that is bound is nested more deeply than the code, by that of the code alone. -/
theorem first_order_ends {expr : Value} {frame : FrameId} {s : Store} (code : ¬ expr.Abstracts)
    (binds : s.BindsAlong frame fun v => ¬ v.IsClosure) :
    (∃ outcome t, outcome ≠ .error .tooDeep ∧
      (∀ n > expr.nesting, (nested n expr frame).run.run s = (outcome, t)) ∧
      (∀ depth, (evaluate depth expr frame).run.run s = (outcome, t) ∨
        ((evaluate depth expr frame).run.run s).1 = .error .tooDeep) ∧
      ∀ depth ≥ 5 * (expr.nesting + 1) + messageDepth outcome,
        (evaluate depth expr frame).run.run s = (outcome, t)) ∧
    (∀ depth outcome t, (evaluate depth expr frame).run.run s = (outcome, t) →
      t.frames.size = s.frames.size ∧ t.chain frame = s.chain frame ∧
        t.BindsAlong frame fun v => ¬ v.IsClosure) ∧
    (s.BindsAlong frame (·.nesting ≤ expr.nesting) → ∀ depth t,
      (evaluate depth expr frame).run.run s = (.error .tooDeep, t) →
        depth ≤ 5 * (expr.nesting + 1) + Error.stepsPerLevel * expr.nesting) ∧
    ∀ m, s.BindsAlong frame (·.nesting ≤ m) → ∀ depth t,
      (evaluate depth expr frame).run.run s = (.error .tooDeep, t) →
        depth ≤ 5 * (expr.nesting + 1) + Error.stepsPerLevel * max m expr.nesting := by
  obtain ⟨outcome, t, ended, run⟩ := exists_nested_outcome code binds
  refine ⟨⟨outcome, t, ended, ?_, ?_, fun depth enough => evaluate_eq_nested run ended enough⟩,
    ?_, ?_, fun m shallow depth u cut => depth_le_of_cut code binds shallow cut⟩
  · intro n more
    exact nested_eq_nested run ended (nested_ends .notClosure code binds more)
  · intro depth
    have more : expr.nesting < max depth (expr.nesting + 1) := Nat.le_max_right ..
    have cut := evaluate_cutOff_nested (Nat.le_max_left depth (expr.nesting + 1)) expr frame
    have agrees := cut.agrees s
    rw [nested_eq_nested run ended (nested_ends .notClosure code binds more)] at agrees
    exact agrees.imp Eq.symm And.left
  · intro depth outcome t run
    have ⟨kept, _⟩ := (evaluate_evaluates run).firstOrder .notClosure code binds
    exact ⟨kept.size, kept.chain, kept.binds⟩
  · intro shallow depth u cut
    have bound := depth_le_of_cut code binds shallow cut
    rwa [Nat.max_self] at bound

/-- A definition made among the builtins. -/
theorem first_order_ends_definition :
    let plus : Value := .list [.symbol ⟨"+"⟩, .number 1, .number 2]
    let expr : Value := .list [.symbol ⟨"define"⟩, .symbol ⟨"x"⟩, plus]
    let s := (Store.allocate {} none).2.install 0
    (¬ expr.Abstracts ∧ s.BindsAlong 0 fun v => ¬ v.IsClosure) ∧
      (∃ outcome t, outcome ≠ .error .tooDeep ∧ (nested 3 expr 0).run.run s = (outcome, t)) ∧
      s.BindsAlong 0 (·.nesting ≤ expr.nesting) ∧
      ∀ depth t, (evaluate depth expr 0).run.run s = (.error .tooDeep, t) → depth ≤ 21 := by
  intro plus expr s
  have code : ¬ expr.Abstracts := by
    have name (x : Symbol) : ¬ (Value.symbol x).Abstracts := nofun
    have number (x : Float) : ¬ (Value.number x).Abstracts := nofun
    have sum : ¬ plus.Abstracts := Value.not_abstracts_cons (by decide) (by simp [name, number])
    exact Value.not_abstracts_cons (by decide) (by simp [name, sum])
  have binds : s.BindsAlong 0 fun v => ¬ v.IsClosure := by
    refine Store.bindsAlong_install.mono ?_
    rintro _ ⟨b, rfl⟩
    exact nofun
  have shallow : s.BindsAlong 0 (·.nesting ≤ expr.nesting) := by
    refine Store.bindsAlong_install.mono ?_
    rintro _ ⟨b, rfl⟩
    exact Nat.zero_le _
  obtain ⟨⟨outcome, t, ended, run, _⟩, _, bound, _⟩ := first_order_ends code binds
  have nests : expr.nesting = 2 := rfl
  rw [nests] at run
  exact ⟨⟨code, binds⟩, ⟨outcome, t, ended, run 3 (by decide)⟩, shallow, bound shallow⟩

/-- Empty lists inside each other. -/
def Value.boxed : Nat → Value
  | 0 => .list []
  | n + 1 => .list [boxed n]

theorem Value.boxed_eq_list (n : Nat) : ∃ items, boxed n = .list items := by
  cases n <;> exact ⟨_, rfl⟩

theorem Value.nesting_boxed (n : Nat) : (boxed n).nesting = n + 1 := by
  induction n with
  | zero => rfl
  | succ n ih => simp [boxed, nesting, nestingAll, ih]

theorem Value.within_boxed (n size : Nat) : (boxed n).Within size := by
  induction n with
  | zero => simp [boxed]
  | succ n ih => simp [boxed, ih]

/-- The message that a sum of a list leads to takes more depth than the list is nested. -/
theorem evaluate_sum_of_list {s : Store} {frame : FrameId} {items : List Value} {depth : Nat}
    (plus : s.lookup frame ⟨"+"⟩ = .ok (.builtin .add))
    (list : s.lookup frame ⟨"x"⟩ = .ok (.list items))
    (deep : depth + 3 ≤ Error.stepsPerLevel * (Value.list items).nesting) :
    ((evaluate depth (.list [.symbol ⟨"+"⟩, .symbol ⟨"x"⟩]) frame).run.run s).1 =
      .error .tooDeep := by
  have head : (evaluate (depth + 4) (.symbol ⟨"+"⟩) frame).run.run s =
      (.ok (.builtin .add), s) := by
    rw [evaluate, run_lookup_eq, plus]
  have form : (evaluate (depth + 1) (.symbol ⟨"x"⟩) frame).run.run s = (.ok (.list items), s) := by
    rw [evaluate, run_lookup_eq, list]
  have arguments : (evaluateAll (depth + 3) [.symbol ⟨"x"⟩] frame).run.run s =
      (.ok [.list items], s) := by
    rw [evaluateAll, List.mapM_cons, run_bind_of_ok form]
    rfl
  have message : ¬ (Error.notNumber .add (.list items)).depth ≤ depth + 3 :=
    Nat.not_le.mpr (Nat.lt_succ_of_le deep)
  have applied : ((apply (depth + 4) (.builtin .add) [.symbol ⟨"x"⟩] frame).run.run s).1 =
      .error .tooDeep := by
    rw [apply, run_bind_of_ok arguments]
    change ((Eval.raise (depth + 3) (.notNumber .add (.list items)) : Eval Value).run.run s).1 = _
    rw [Eval.raise, if_neg message]
    rfl
  -- With five steps more, all but the message fits, and fewer steps cut off no less.
  have cut : ((evaluate (depth + 5) (.list [.symbol ⟨"+"⟩, .symbol ⟨"x"⟩]) frame).run.run s).1 =
      .error .tooDeep := by
    have keyword : (Value.symbol ⟨"+"⟩).keyword? = none := by decide
    rw [evaluate]
    simp only [keyword]
    rwa [run_bind_of_ok head]
  obtain same | shorter := (evaluate_cutOff (Nat.le_add_right depth 5) _ frame).agrees s
  · rwa [same] at cut
  · exact shorter.1

/-- No depth is enough for code that is nested once, since the list that a name is bound to can be
nested more deeply: at a depth of 1000 it is enough to bind a list with 400 levels. -/
theorem no_depth_for_bound_lists :
    let expr : Value := .list [.symbol ⟨"+"⟩, .symbol ⟨"x"⟩]
    let s (n : Nat) := ((Store.allocate {} none).2.install 0).bind 0 ⟨"x"⟩ (Value.boxed n)
    expr.nesting = 1 ∧ ¬ expr.Abstracts ∧
      (∀ n, (s n).WellFormed ∧ (s n).BindsAlong 0 fun v => ¬ v.IsClosure) ∧
      ((evaluate 1000 expr 0).run.run (s 399)).1 = .error .tooDeep ∧
      ∀ depth, ∃ n, ((evaluate depth expr 0).run.run (s n)).1 = .error .tooDeep := by
  intro expr s
  have forms : ∀ v ∈ [Value.symbol ⟨"+"⟩, Value.symbol ⟨"x"⟩], ¬ v.Abstracts :=
    List.forall_mem_cons.mpr ⟨nofun, List.forall_mem_singleton.mpr nofun⟩
  have code : ¬ expr.Abstracts := Value.not_abstracts_cons (by decide) forms
  have plus (n : Nat) : (s n).lookup 0 ⟨"+"⟩ = .ok (.builtin .add) := by rfl
  have bound (n : Nat) : (s n).lookup 0 ⟨"x"⟩ = .ok (Value.boxed n) := by rfl
  have cut (depth n : Nat) (deep : depth + 3 ≤ Error.stepsPerLevel * (n + 1)) :
      ((evaluate depth expr 0).run.run (s n)).1 = .error .tooDeep := by
    obtain ⟨items, list⟩ := Value.boxed_eq_list n
    have found := bound n
    rw [list] at found
    rw [← Value.nesting_boxed n, list] at deep
    exact evaluate_sum_of_list (plus n) found deep
  refine ⟨rfl, code, fun n => ⟨?_, ?_⟩, cut 1000 399 (by decide), fun depth => ⟨depth, cut _ _ ?_⟩⟩
  · exact (Store.rootedAt_install.bind (Value.within_boxed n _)).toWellFormed
  · obtain ⟨items, list⟩ := Value.boxed_eq_list n
    refine Store.BindsAlong.bind (Store.bindsAlong_install.mono ?_) (list ▸ nofun)
    rintro _ ⟨b, rfl⟩
    exact nofun
  · unfold Error.stepsPerLevel
    omega

end MiniLisp
