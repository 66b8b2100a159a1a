import MiniLisp.Proofs.Evaluation.Beta
import MiniLisp.Proofs.Evaluation.Relocation
import MiniLisp.Proofs.Session.Run

namespace MiniLisp

namespace Session

theorem closed_start (depth : Nat) : (start depth).store.Closed := by
  have root : (Store.allocate {} none).2.Closed := by
    have none : ({} : Store).Ordered := fun i o link =>
      absurd (Store.present_of_outer? link) (Nat.not_lt_zero i)
    refine ⟨none.push rfl (by simp), fun i frame found => ?_⟩
    have empty : frame = {} := by simpa [Store.allocate] using Array.mem_of_getElem? found
    subst empty
    exact ⟨by simp, by simp⟩
  have installed : (start depth).HasRoot ∧ (start depth).store.Closed :=
    Store.install_induction (P := fun s => Session.root < s.frames.size ∧ s.Closed)
      ⟨Nat.zero_lt_one, root⟩ fun s b before =>
        ⟨(Store.size_bind s _ _ _).symm ▸ before.1, before.2.bind before.1 _ .builtin⟩
  exact installed.2

theorem Runs.closed {s t : Session} (runs : s.Runs t) (rooted : s.HasRoot)
    (closed : s.store.Closed) : t.store.Closed := by
  induction runs with
  | refl => exact closed
  | note _ _ ih => exact ⟨ih.ordered, ih.inside⟩
  | @evaluate t expr before _ ih =>
      exact ih.evaluate ((before.leads rooted).hasRoot rooted) t.depth expr

theorem closed_after (depth : Nat) (inputs : List Input) :
    ((start depth).after inputs).store.Closed :=
  ((start depth).after_runs inputs).closed (hasRoot_start depth) (closed_start depth)

end Session

/-- An evaluation that is asked for. -/
structure Evaluation where
  expr : Value
  frame : FrameId
  depth : Nat

namespace Evaluation

def run (e : Evaluation) (s : Store) : Except Error Value × Store :=
  (evaluate e.depth e.expr e.frame).run.run s

/-- It begins in a frame of the store and defines nothing there. -/
structure Pure (s : Store) (e : Evaluation) : Prop where
  present : e.frame < s.frames.size
  unexposed : ∀ x, ¬ e.expr.Exposes x

end Evaluation

/-- The store after some evaluations, whatever their outcomes. -/
def Store.afterAll (s : Store) (evaluations : List Evaluation) : Store :=
  evaluations.foldl (fun s e => (e.run s).2) s

theorem Store.afterAll_concat (s : Store) (before : List Evaluation) (e : Evaluation) :
    s.afterAll (before ++ [e]) = (e.run (s.afterAll before)).2 :=
  List.foldl_concat _ _ _ _

/-- The same value, in a frame of another number if it is a closure, or errors of one kind and with
one message. -/
inductive AnsweredAlike (f : FrameId → FrameId) :
    Except Error Value → Except Error Value → Prop where
  | ok : AnsweredAlike f (.ok v) (.ok (v.moved f))
  | error (kind : e.kind = e'.kind) (message : e.message = e'.message) :
      AnsweredAlike f (.error e) (.error e')

/-- From two stores, which have the frames of `s` in common, the evaluation has one outcome, and it
makes the same frames under other numbers. -/
structure Evaluation.RunsAlike (e : Evaluation) (s t t' : Store) (r : Relocation) : Prop where
  common : r.common = s.frames.size
  first : r.first = t.frames.size
  second : r.second = t'.frames.size
  answers : AnsweredAlike r.image (e.run t).1 (e.run t').1
  stores : r.Stores (e.run t).2.frames.size (e.run t).2 (e.run t').2
  made : ∀ v, (e.run t).1 = .ok v → v.MadeIn (r.Visible (e.run t).2.frames.size)

section

variable {s t : Store} {e : Evaluation} {evaluations : List Evaluation}

theorem Evaluation.Pure.extends (pure : e.Pure s) (kept : t.Extends s) :
    (e.run t).2.Extends s := by
  have present := Nat.lt_of_lt_of_le pure.present kept.size_le
  have evaluated : Evaluates e.expr e.frame t (e.run t).1 (e.run t).2 := evaluate_evaluates rfl
  refine Store.Extends.trans ⟨(evaluated.writes present).size_le, fun i old => ?_⟩ kept
  exact evaluated.frame_eq_of_unexposed pure.unexposed present old

/-- Such evaluations leave the frames that were there as they were. -/
theorem Store.Closed.afterAll (closed : s.Closed) (pure : ∀ e ∈ evaluations, e.Pure s) :
    (s.afterAll evaluations).Extends s ∧ (s.afterAll evaluations).Closed := by
  refine List.foldlRecOn (motive := fun t : Store => t.Extends s ∧ t.Closed) evaluations _
    ⟨.refl s, closed⟩ fun t before e member => ?_
  obtain ⟨kept, closed⟩ := before
  have pure := pure e member
  have present := Nat.lt_of_lt_of_le pure.present kept.size_le
  exact ⟨pure.extends kept, closed.evaluate present e.depth e.expr⟩

theorem Evaluation.Pure.after (pure : e.Pure s) (kept : t.Extends s) : e.Pure t :=
  ⟨Nat.lt_of_lt_of_le pure.present kept.size_le, pure.unexposed⟩

/-- What was there at some time is there after all of the evaluations. -/
theorem Store.Closed.extends_take (closed : s.Closed) (pure : ∀ e ∈ evaluations, e.Pure s)
    (k : Nat) : (s.afterAll evaluations).Extends (s.afterAll (evaluations.take k)) := by
  obtain ⟨kept, between⟩ := closed.afterAll fun e member => pure e (List.mem_of_mem_take member)
  have later : s.afterAll evaluations =
      (s.afterAll (evaluations.take k)).afterAll (evaluations.drop k) := by
    rw [Store.afterAll, Store.afterAll, Store.afterAll, ← List.foldl_append, List.take_append_drop]
  rw [later]
  exact (between.afterAll fun e member => (pure e (List.mem_of_mem_drop member)).after kept).1

end

/-- After any such evaluations an evaluation has one outcome, and makes the same frames under other
numbers. -/
theorem Store.Closed.answered_alike {s : Store} (closed : s.Closed)
    {before before' : List Evaluation} {e : Evaluation} (pure : ∀ e ∈ before, e.Pure s)
    (pure' : ∀ e ∈ before', e.Pure s) (present : e.frame < s.frames.size) :
    ∃ r : Relocation, e.RunsAlike s (s.afterAll before) (s.afterAll before') r := by
  let t := s.afterAll before
  let t' := s.afterAll before'
  obtain ⟨kept, first⟩ := closed.afterAll pure
  obtain ⟨kept', second⟩ := closed.afterAll pure'
  let r := Relocation.ofExtensions kept kept'
  have fixed : r.image e.frame = e.frame := Relocation.image_common present
  have code : r.relations.code t.frames.size e.expr e.frame e.expr e.frame :=
    ⟨rfl, .inl present, fixed.symm⟩
  have start := Relocation.ofExtensions_stores closed first.ordered second.ordered kept kept'
  obtain ⟨w, _, stores, outcomes⟩ := r.simulation.evaluate code start e.depth
  change r.Stores w (e.run t).2 (e.run t').2 at stores
  change r.relations.Outcomes (r.Values w) (e.run t).1 (e.run t').1 at outcomes
  have size := stores.size
  subst size
  have both : AnsweredAlike r.image (e.run t).1 (e.run t').1 ∧
      ∀ v, (e.run t).1 = .ok v → v.MadeIn (r.Visible (e.run t).2.frames.size) := by
    generalize (e.run t).2.frames.size = w at outcomes
    generalize (e.run t).1 = outcome at outcomes
    generalize (e.run t').1 = outcome' at outcomes
    cases outcomes with
    | error same => exact ⟨.error same.1 same.2.1, nofun⟩
    | ok same =>
        cases same.moved
        refine ⟨.ok, fun v answer => ?_⟩
        cases answer
        exact same.made
  exact ⟨r, rfl, rfl, rfl, both.1, stores, both.2⟩

theorem AnsweredAlike.succeeds_iff {f : FrameId → FrameId} {outcome outcome' : Except Error Value}
    (alike : AnsweredAlike f outcome outcome') :
    (∃ v, outcome = .ok v) ↔ ∃ v, outcome' = .ok v := by
  cases alike with
  | ok => exact iff_of_true ⟨_, rfl⟩ ⟨_, rfl⟩
  | error => exact iff_of_false nofun nofun

/-- The evaluation of an argument, which has two steps less than that of all arguments. -/
def Evaluation.argument (frame : FrameId) (depth : Nat) (form : Value) : Evaluation :=
  { expr := form, frame, depth := depth - 2 }

open Evaluation (argument)

section

variable {s : Store} {frame : FrameId} {depth : Nat} {forms : List Value}

theorem evaluateAll_eq (enough : 2 ≤ depth) : evaluateAll depth forms frame =
    forms.mapM fun form => evaluate (depth - 2) form frame := by
  obtain ⟨less, rfl⟩ := Nat.exists_eq_add_of_le' enough
  rw [evaluateAll, Nat.add_sub_cancel]

theorem two_le_of_evaluateAll {args : List Value} {t : Store}
    (run : (evaluateAll depth forms frame).run.run s = (.ok args, t)) : 2 ≤ depth := by
  match depth with
  | 0 | 1 => cases run
  | depth + 2 => exact Nat.le_add_left 2 depth

/-- Every argument is evaluated in the store that those before it leave. -/
theorem mapM_run {args : List Value} {t : Store} (run : (forms.mapM fun form =>
      evaluate (depth - 2) form frame).run.run s = (.ok args, t)) :
    t = s.afterAll (forms.map (argument frame depth)) ∧
      ∀ (k : Nat) form v, forms[k]? = some form → args[k]? = some v →
        ((argument frame depth form).run
          (s.afterAll ((forms.take k).map (argument frame depth)))).1 = .ok v := by
  induction forms generalizing s args with
  | nil =>
      cases run
      exact ⟨rfl, nofun⟩
  | cons first rest ih =>
      rw [List.mapM_cons] at run
      obtain ⟨e, _, failed⟩ | ⟨value, u, here, others⟩ := Eval.run_bind run
      · cases failed
      obtain ⟨e, _, failed⟩ | ⟨values, w, later, done⟩ := Eval.run_bind others
      · cases failed
      cases done
      obtain ⟨last, each⟩ := ih later
      have next : ((argument frame depth first).run s).2 = u := congrArg Prod.snd here
      refine ⟨?_, fun k form v atForm atValue => ?_⟩
      · rw [last, ← next]
        rfl
      · cases k with
        | zero =>
            cases atForm
            cases atValue
            exact congrArg Prod.fst here
        | succ k =>
            have same := each k form v atForm atValue
            rwa [← next] at same

theorem run_cons_succeeds_iff {rest : Eval (List Value)} {v : Value} :
    (∃ args, ((rest >>= fun others => pure (v :: others)).run.run s).1 = .ok args) ↔
      ∃ others, (rest.run.run s).1 = .ok others := by
  cases run : rest.run.run s with
  | mk outcome t =>
      cases outcome with
      | error e => rw [Eval.run_bind_of_error run]
      | ok others =>
          rw [Eval.run_bind_of_ok run]
          exact iff_of_true ⟨_, rfl⟩ ⟨_, rfl⟩

variable (present : frame < s.frames.size) (unexposed : ∀ form ∈ forms, ∀ x, ¬ form.Exposes x)
include present unexposed

theorem pure_arguments : ∀ e ∈ forms.map (argument frame depth), e.Pure s := by
  exact List.forall_mem_map.mpr fun form member => ⟨present, unexposed form member⟩

theorem pure_earlier_arguments (k : Nat) :
    ∀ e ∈ (forms.take k).map (argument frame depth), e.Pure s :=
  pure_arguments present fun form member => unexposed form (List.mem_of_mem_take member)

variable (closed : s.Closed)
include closed

/-- The evaluation of arguments succeeds if each of them succeeds on its own. -/
theorem mapM_succeeds_iff {before : List Evaluation} (pure : ∀ e ∈ before, e.Pure s) :
    (∃ args, ((forms.mapM fun form => evaluate (depth - 2) form frame).run.run
        (s.afterAll before)).1 = .ok args) ↔
      ∀ form ∈ forms, ∃ v, ((argument frame depth form).run s).1 = .ok v := by
  induction forms generalizing before with
  | nil => exact iff_of_true ⟨[], rfl⟩ (List.forall_mem_nil _)
  | cons form rest ih =>
      let next := argument frame depth form
      have here : next.Pure s := ⟨present, unexposed form List.mem_cons_self⟩
      obtain ⟨r, alike⟩ := closed.answered_alike pure (List.forall_mem_nil _) present (e := next)
      have later := ih (fun form member => unexposed form (List.mem_cons_of_mem _ member))
        (List.forall_mem_append.mpr ⟨pure, List.forall_mem_singleton.mpr here⟩)
      rw [Store.afterAll_concat] at later
      have first : (∃ v, (next.run (s.afterAll before)).1 = .ok v) ↔ ∃ v, (next.run s).1 = .ok v :=
        alike.answers.succeeds_iff
      rw [List.forall_mem_cons, ← later, ← first, List.mapM_cons]
      cases run : next.run (s.afterAll before) with
      | mk outcome t =>
          change (evaluate (depth - 2) form frame).run.run (s.afterAll before) = (outcome, t) at run
          cases outcome with
          | error e =>
              rw [Eval.run_bind_of_error run]
              exact iff_of_false nofun fun both => nomatch both.1
          | ok v =>
              rw [Eval.run_bind_of_ok run, run_cons_succeeds_iff]
              exact (and_iff_right ⟨v, rfl⟩).symm

theorem evaluateAll_succeeds_iff (enough : 2 ≤ depth) :
    (∃ args, ((evaluateAll depth forms frame).run.run s).1 = .ok args) ↔
      ∀ form ∈ forms, ∃ v, ((argument frame depth form).run s).1 = .ok v := by
  rw [evaluateAll_eq enough]
  exact mapM_succeeds_iff present unexposed closed (List.forall_mem_nil _)

/-- Each argument comes to what it comes to behind those before it, and the store that is left then
has the same frames in the end. -/
theorem evaluateAll_argument {args : List Value} {t : Store}
    (run : (evaluateAll depth forms frame).run.run s = (.ok args, t)) {k : Nat} {form v : Value}
    (atForm : forms[k]? = some form) (atValue : args[k]? = some v) :
    let before := s.afterAll ((forms.take k).map (argument frame depth))
    ((argument frame depth form).run before).1 = .ok v ∧
      t.Extends ((argument frame depth form).run before).2 := by
  rw [evaluateAll_eq (two_le_of_evaluateAll run)] at run
  obtain ⟨rfl, each⟩ := mapM_run run
  refine ⟨each k form v atForm atValue, ?_⟩
  have next : (forms.map (argument frame depth)).take (k + 1) =
      (forms.take k).map (argument frame depth) ++ [argument frame depth form] := by
    rw [← List.map_take, List.take_add_one, atForm, List.map_append]
    rfl
  have pure : ∀ e ∈ forms.map (argument frame depth), e.Pure s :=
    pure_arguments present unexposed
  have kept := closed.extends_take pure (k + 1)
  rwa [next, Store.afterAll_concat] at kept

end

/-- The values of one argument in two orders of evaluation are the same, but for the frames that
were made on the way. -/
theorem Store.Closed.arguments_alike {s : Store} (closed : s.Closed) {forms forms' : List Value}
    {frame : FrameId} {depth : Nat} (reordered : forms.Perm forms')
    (unexposed : ∀ form ∈ forms, ∀ x, ¬ form.Exposes x) (present : frame < s.frames.size)
    {args args' : List Value} {t t' : Store}
    (run : (evaluateAll depth forms frame).run.run s = (.ok args, t))
    (run' : (evaluateAll depth forms' frame).run.run s = (.ok args', t')) {k k' : Nat}
    {form v v' : Value} (atForm : forms[k]? = some form) (atForm' : forms'[k']? = some form)
    (atValue : args[k]? = some v) (atValue' : args'[k']? = some v') :
    let e := argument frame depth form
    let before := s.afterAll ((forms.take k).map (argument frame depth))
    let before' := s.afterAll ((forms'.take k').map (argument frame depth))
    t.Extends (e.run before).2 ∧ t'.Extends (e.run before').2 ∧ (e.run before).1 = .ok v ∧
      ∃ r : Relocation, e.RunsAlike s before before' r ∧ v' = v.moved r.image := by
  intro e before before'
  have unexposed' : ∀ form ∈ forms', ∀ x, ¬ form.Exposes x :=
    fun form member => unexposed form (reordered.mem_iff.mpr member)
  obtain ⟨value, kept⟩ := evaluateAll_argument present unexposed closed run atForm atValue
  obtain ⟨value', kept'⟩ := evaluateAll_argument present unexposed' closed run' atForm' atValue'
  obtain ⟨r, alike⟩ : ∃ r, e.RunsAlike s before before' r :=
    closed.answered_alike (pure_earlier_arguments present unexposed k)
      (pure_earlier_arguments present unexposed' k') present
  refine ⟨kept, kept', value, r, alike, ?_⟩
  have answers := alike.answers
  rw [value, value'] at answers
  cases answers
  rfl

/-- In every store that a session can have, and in every other closed one: after any evaluations
that expose no definition, a further one has the outcome that it has after any others, the frames
that it makes apart. So such arguments can be evaluated in any order. -/
theorem unexposed_evaluations_pure :
    (∀ depth inputs, ((Session.start depth).after inputs).store.Closed) ∧
    ∀ s : Store, s.Closed →
      (∀ (before before' : List Evaluation) (next : Evaluation),
        (∀ e ∈ before ++ before', e.Pure s) → next.frame < s.frames.size →
        ∃ r : Relocation, next.RunsAlike s (s.afterAll before) (s.afterAll before') r) ∧
      ∀ (forms forms' : List Value) (frame : FrameId) (depth : Nat), forms.Perm forms' →
        (∀ form ∈ forms, ∀ x, ¬ form.Exposes x) → frame < s.frames.size →
        let run := (evaluateAll depth forms frame).run.run s
        let run' := (evaluateAll depth forms' frame).run.run s
        (∀ args, run.1 = .ok args → ∃ args', run'.1 = .ok args') ∧
        ∀ args args', run.1 = .ok args → run'.1 = .ok args' →
          ∀ (k k' : Nat) form v v', forms[k]? = some form → forms'[k']? = some form →
            args[k]? = some v → args'[k']? = some v' →
            let e := argument frame depth form
            let before := s.afterAll ((forms.take k).map (argument frame depth))
            let before' := s.afterAll ((forms'.take k').map (argument frame depth))
            run.2.Extends (e.run before).2 ∧ run'.2.Extends (e.run before').2 ∧
              (e.run before).1 = .ok v ∧
              ∃ r : Relocation, e.RunsAlike s before before' r ∧ v' = v.moved r.image := by
  refine ⟨Session.closed_after, fun s closed => ⟨?_, ?_⟩⟩
  · intro before before' next pure present
    obtain ⟨earlier, earlier'⟩ := List.forall_mem_append.mp pure
    exact closed.answered_alike earlier earlier' present
  · intro forms forms' frame depth reordered unexposed present run run'
    refine ⟨fun args done => ?_, fun args args' done done' k k' form v v' atForm atForm' atValue
      atValue' => ?_⟩
    · have enough := two_le_of_evaluateAll (Prod.ext done rfl)
      have unexposed' : ∀ form ∈ forms', ∀ x, ¬ form.Exposes x :=
        fun form member => unexposed form (reordered.mem_iff.mpr member)
      refine (evaluateAll_succeeds_iff present unexposed' closed enough).mpr fun form member => ?_
      exact (evaluateAll_succeeds_iff present unexposed closed enough).mp ⟨args, done⟩ form
        (reordered.mem_iff.mpr member)
    · exact closed.arguments_alike reordered unexposed present (Prod.ext done rfl)
        (Prod.ext done' rfl) atForm atForm' atValue atValue'

/-- Two calls that return closures, one after the other and the other way round: what was made in
the first frame is made in the second one then. A call that is evaluated again makes another one. -/
theorem unexposed_evaluations_pure_closure :
    let inner : Value := .list [.symbol ⟨"lambda"⟩, .list [], .symbol ⟨"x"⟩]
    let call (b : Bool) : Value := .redex ⟨"x"⟩ inner (.boolean b)
    let e : Evaluation := { expr := call true, frame := Session.root, depth := 20 }
    let s := ((Session.start 20).after []).store
    let made (i : FrameId) : Value := .closure (.list []) (.symbol ⟨"x"⟩) i
    (s.Closed ∧ e.Pure s ∧ [call true, call false].Perm [call false, call true]) ∧
    (e.run s).1 = .ok (made 1) ∧ (e.run (s.afterAll [e])).1 = .ok (made 2) ∧
    (∃ r : Relocation, r.common = 1 ∧ r.first = 2 ∧ r.second = 1 ∧
      AnsweredAlike r.image (e.run (s.afterAll [e])).1 (e.run s).1) ∧
    ((evaluateAll 20 [call true, call false] Session.root).run.run s).1 = .ok [made 1, made 2] ∧
    ((evaluateAll 20 [call false, call true] Session.root).run.run s).1 = .ok [made 1, made 2] ∧
    ∃ r : Relocation, r.first = 1 ∧ r.second = 2 ∧ made 2 = (made 1).moved r.image := by
  intro inner call e s made
  have closed : s.Closed := unexposed_evaluations_pure.1 20 []
  have present : Session.root < s.frames.size := by decide +kernel
  have unexposed (b : Bool) : ∀ x, ¬ (call b).Exposes x := fun x => Value.redex_unexposed .boolean
  have pure : ∀ d ∈ [e] ++ [], d.Pure s :=
    List.forall_mem_singleton.mpr ⟨present, unexposed true⟩
  have swapped : [call true, call false].Perm [call false, call true] := .swap _ _ _
  obtain ⟨again, reordered⟩ := unexposed_evaluations_pure.2 s closed
  obtain ⟨r, common, first, second, alike, _⟩ := again [e] [] e pure present
  have plain : ∀ form ∈ [call true, call false], ∀ x, ¬ form.Exposes x :=
    List.forall_mem_cons.mpr ⟨unexposed true, List.forall_mem_singleton.mpr (unexposed false)⟩
  have done : ((evaluateAll 20 [call true, call false] Session.root).run.run s).1 =
      .ok [made 1, made 2] := rfl
  have done' : ((evaluateAll 20 [call false, call true] Session.root).run.run s).1 =
      .ok [made 1, made 2] := rfl
  obtain ⟨_, _, _, r', alike', moved⟩ := (reordered _ _ Session.root 20 swapped plain present).2
    _ _ done done' 0 1 (call true) (made 1) (made 2) rfl rfl rfl rfl
  exact ⟨⟨closed, ⟨present, unexposed true⟩, swapped⟩, rfl, rfl, ⟨r, common, first, second, alike⟩,
    done, done', r', alike'.first, alike'.second, moved⟩

end MiniLisp
