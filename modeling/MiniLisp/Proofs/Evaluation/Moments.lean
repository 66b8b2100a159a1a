import MiniLisp.Proofs.Evaluation.Depth
import MiniLisp.Proofs.Evaluation.Escape
import MiniLisp.Proofs.Store.Rooted

/-! # Moments of an evaluation

`Visits expr frame s u held` holds when the evaluation of `expr` in `frame`, from the store `s` on,
comes to a moment with the store `u` at which it holds these values: what its parts have come to so
far, in the order of their evaluation. Every store that the events of an evaluation lead through is
the store of such a moment. At all of them the frames are around one root, and the closures that are
bound or held were made in frames that are there.
-/

namespace MiniLisp

mutual

inductive Visits : Value → FrameId → Store → Store → List Value → Prop where
  | start : Visits expr frame s s []
  | finish (evaluated : Evaluates expr frame s (.ok v) t) : Visits expr frame s t [v]
  | test (keyword : head.keyword? = some .conditional) (inside : Visits test frame s u held) :
      Visits (.list [head, test, yes, no]) frame s u held
  | branch (keyword : head.keyword? = some .conditional)
      (tested : Evaluates test frame s (.ok (.boolean b)) t)
      (inside : Visits (if b then yes else no) frame t u held) :
      Visits (.list [head, test, yes, no]) frame s u (.boolean b :: held)
  | value (keyword : head.keyword? = some .definition) (inside : Visits form frame s u held) :
      Visits (.list [head, .symbol x, form]) frame s u held
  | head (plain : head.keyword? = none) (inside : Visits head frame s u held) :
      Visits (.list (head :: forms)) frame s u held
  | arguments (plain : head.keyword? = none) (first : Evaluates head frame s (.ok function) t)
      (inside : VisitsAll forms frame t u held) :
      Visits (.list (head :: forms)) frame s u (function :: held)
  | body (plain : head.keyword? = none)
      (first : Evaluates head frame s (.ok (.closure params body outer)) t)
      (arguments : EvaluatesAll forms frame t (.ok args) u)
      (opened : u.openCall outer params args = (.ok called, w))
      (inside : Visits body called w z held) :
      Visits (.list (head :: forms)) frame s z (.closure params body outer :: (args ++ held))

inductive VisitsAll : List Value → FrameId → Store → Store → List Value → Prop where
  | start : VisitsAll forms frame s s []
  | first (inside : Visits form frame s u held) : VisitsAll (form :: forms) frame s u held
  | later (first : Evaluates form frame s (.ok v) t) (inside : VisitsAll forms frame t u held) :
      VisitsAll (form :: forms) frame s u (v :: held)

end

/-- Events lead from `s` to `t`, and each store on the way is that of a moment. -/
def Passes (moment : Store → List Value → Prop) (s t : Store) : Prop :=
  ∃ events, t = s.replay events ∧
    ∀ done, done <+: events → ∃ held, moment (s.replay done) held

namespace Passes

variable {moment wider : Store → List Value → Prop} {s t u : Store}

theorem refl {held : List Value} (here : moment s held) : Passes moment s s := by
  refine ⟨[], rfl, fun done early => ?_⟩
  obtain rfl := List.prefix_nil.mp early
  exact ⟨held, here⟩

theorem step {e : Event} (before : ∃ held, moment s held) (after : ∃ held, moment (s.redo e) held) :
    Passes moment s (s.redo e) := by
  refine ⟨[e], rfl, fun done early => ?_⟩
  obtain rfl | ⟨rest, rfl, late⟩ := List.prefix_cons_iff.mp early
  · exact before
  · obtain rfl := List.prefix_nil.mp late
    exact after

theorem first (passes : Passes moment s t) : ∃ held, moment s held := by
  obtain ⟨events, _, inside⟩ := passes
  exact inside [] List.nil_prefix

theorem last (passes : Passes moment s t) : ∃ held, moment t held := by
  obtain ⟨events, rfl, inside⟩ := passes
  exact inside events (List.prefix_refl events)

theorem trans (first : Passes moment s t) (second : Passes moment t u) : Passes moment s u := by
  obtain ⟨before, rfl, early⟩ := first
  obtain ⟨after, rfl, late⟩ := second
  refine ⟨before ++ after, (s.replay_append before after).symm, fun done inside => ?_⟩
  obtain within | ⟨rest, rfl⟩ :=
    List.prefix_or_prefix_of_prefix inside (List.prefix_append before after)
  · exact early done within
  · rw [Store.replay_append]
    exact late rest ((List.prefix_append_right_inj before).mp inside)

theorem mono (passes : Passes moment s t)
    (widened : ∀ {u held}, moment u held → ∃ more, wider u more) : Passes wider s t := by
  obtain ⟨events, last, inside⟩ := passes
  refine ⟨events, last, fun done early => ?_⟩
  obtain ⟨_, here⟩ := inside done early
  exact widened here

end Passes

theorem Store.openCall_eq_redo {s t : Store} {outer i : FrameId} {params : Value}
    {args : List Value} (opened : s.openCall outer params args = (.ok i, t)) :
    ∃ frame, t = s.redo (.called i frame) := by
  unfold openCall at opened
  split at opened
  · cases opened
  · split at opened
    · cases opened
      exact ⟨_, rfl⟩
    · cases opened

/-- The store that a call leaves is that of its body's first moment. -/
theorem Passes.call {moment : Store → List Value → Prop} {s t u w : Store} {outer i : FrameId}
    {params : Value} {args : List Value} (before : Passes moment s t)
    (opened : t.openCall outer params args = (.ok i, u)) (body : Passes moment u w) :
    Passes moment s w := by
  obtain ⟨frame, rfl⟩ := Store.openCall_eq_redo opened
  exact before.trans ((Passes.step before.last body.first).trans body)

mutual

theorem Evaluates.passes : Evaluates expr frame s outcome t → Passes (Visits expr frame s) s t
  | .refused _ | .symbol | .number | .boolean | .builtin | .abstraction _ => .refl .start
  | .testFails keyword tested | .notBoolean keyword tested _ _ =>
      tested.passes.mono fun inside => ⟨_, .test keyword inside⟩
  | .branch keyword tested chosen =>
      .trans (tested.passes.mono fun inside => ⟨_, .test keyword inside⟩)
        (chosen.passes.mono fun inside => ⟨_, .branch keyword tested inside⟩)
  | .valueFails keyword evaluated =>
      evaluated.passes.mono fun inside => ⟨_, .value keyword inside⟩
  | .definition keyword evaluated =>
      .trans (evaluated.passes.mono fun inside => ⟨_, .value keyword inside⟩)
        (.step (e := .bound _ _ _) ⟨_, .value keyword (.finish evaluated)⟩
          ⟨_, .finish (.definition keyword evaluated)⟩)
  | .headFails plain first | .inapplicable plain first _ =>
      first.passes.mono fun inside => ⟨_, .head plain inside⟩
  | .argumentsFail plain first arguments | .primitive plain first arguments _ =>
      .trans (first.passes.mono fun inside => ⟨_, .head plain inside⟩)
        (arguments.passes.mono fun inside => ⟨_, .arguments plain first inside⟩)
  | .call plain first arguments opened result =>
      .call
        (.trans (first.passes.mono fun inside => ⟨_, .head plain inside⟩)
          (arguments.passes.mono fun inside => ⟨_, .arguments plain first inside⟩))
        opened (result.passes.mono fun inside => ⟨_, .body plain first arguments opened inside⟩)

theorem EvaluatesAll.passes : EvaluatesAll forms frame s outcome t →
    Passes (VisitsAll forms frame s) s t
  | .tooDeep | .nil => .refl .start
  | .firstFails first => first.passes.mono fun inside => ⟨_, .first inside⟩
  | .cons first rest =>
      .trans (first.passes.mono fun inside => ⟨_, .first inside⟩)
        (rest.passes.mono fun inside => ⟨_, .later first inside⟩)

end

/-- The store `t` is `s` after some steps: it has the same root, with all frames and bindings. -/
structure Grown (root : FrameId) (s t : Store) : Prop where
  rooted : t.RootedAt root
  size_le : s.frames.size ≤ t.frames.size
  bound : ∀ i x, (s.binding? i x).isSome → (t.binding? i x).isSome

namespace Grown

variable {root i : FrameId} {s t u : Store} {x : Symbol} {v : Value}

theorem refl (rooted : s.RootedAt root) : Grown root s s :=
  ⟨rooted, Nat.le_refl _, fun _ _ => id⟩

theorem trans (first : Grown root s t) (second : Grown root t u) : Grown root s u where
  rooted := second.rooted
  size_le := Nat.le_trans first.size_le second.size_le
  bound i x before := second.bound i x (first.bound i x before)

theorem present (grown : Grown root s t) (before : i < s.frames.size) : i < t.frames.size :=
  Nat.lt_of_lt_of_le before grown.size_le

theorem within (grown : Grown root s t) (before : v.Within s.frames.size) :
    v.Within t.frames.size :=
  before.mono grown.size_le

theorem note (grown : Grown root s t) (e : Event) : Grown root s (t.note e) where
  rooted := { grown.rooted with }
  size_le := grown.size_le
  bound := grown.bound

theorem bind (grown : Grown root s t) (within : v.Within t.frames.size) :
    Grown root s (t.bind i x v) where
  rooted := grown.rooted.bind within
  size_le := by
    rw [Store.size_bind]
    exact grown.size_le
  bound j y before := Store.isSome_binding?_bind (grown.bound j y before)

/-- A call of a closure at hand opens a frame, in which its body is at hand. -/
theorem openCall {outer : FrameId} {params body : Value} {args : List Value}
    (rooted : s.RootedAt root) (closure : (Value.closure params body outer).Within s.frames.size)
    (arguments : ∀ v ∈ args, v.Within s.frames.size)
    (opened : s.openCall outer params args = (.ok i, t)) :
    Grown root s t ∧ body.Within t.frames.size := by
  have ⟨older, _, code⟩ := Value.within_closure.mp closure
  have grown : Grown root s t := {
    rooted := rooted.openCall opened older arguments
    size_le := Store.size_openCall opened ▸ Nat.le_succ _
    bound := fun j y before => by
      obtain ⟨_, _, _, _, _, _, frames, _⟩ := Store.openCall_eq_ok opened
      exact Store.isSome_binding?_push frames before }
  exact ⟨grown, grown.within code⟩

end Grown

section

variable {root : FrameId}

mutual

/-- Evaluation keeps the frames around their root. It makes closures of frames that are there. -/
theorem Evaluates.grown : Evaluates expr frame s outcome t → s.RootedAt root →
    frame < s.frames.size → expr.Within s.frames.size →
    Grown root s t ∧ ∀ v, outcome = .ok v → v.Within t.frames.size
  | .refused _, rooted, _, _ => ⟨.refl rooted, nofun⟩
  | .symbol, rooted, _, _ => ⟨.refl rooted, fun _ found => rooted.within.of_lookup found⟩
  | .number, rooted, _, within | .boolean, rooted, _, within | .builtin, rooted, _, within =>
      ⟨.refl rooted, fun _ same => Except.ok.inj same ▸ within⟩
  | .testFails _ tested, rooted, present, within | .notBoolean _ tested _ _, rooted, present, within =>
      ⟨(tested.grown rooted present (Value.within_list.mp within _ (by simp))).1, nofun⟩
  | .branch _ tested chosen, rooted, present, within => by
      have parts := Value.within_list.mp within
      have ⟨test, _⟩ := tested.grown rooted present (parts _ (by simp))
      have ⟨rest, result⟩ := chosen.grown test.rooted (test.present present)
        (test.within (parts _ (by split <;> simp)))
      exact ⟨test.trans rest, result⟩
  | .valueFails _ evaluated, rooted, present, within =>
      ⟨(evaluated.grown rooted present (Value.within_list.mp within _ (by simp))).1, nofun⟩
  | .definition _ evaluated, rooted, present, within => by
      have ⟨value, result⟩ := evaluated.grown rooted present
        (Value.within_list.mp within _ (by simp))
      refine ⟨value.bind (result _ rfl), fun v same => ?_⟩
      cases same
      exact Value.within_symbol _
  | .abstraction _, rooted, present, within => by
      have parts := Value.within_list.mp within
      refine ⟨.refl rooted, fun v same => ?_⟩
      cases same
      exact Value.within_closure.mpr ⟨present, parts _ (by simp), parts _ (by simp)⟩
  | .headFails _ first, rooted, present, within | .inapplicable _ first _, rooted, present, within =>
      ⟨(first.grown rooted present (Value.within_list.mp within _ (by simp))).1, nofun⟩
  | .argumentsFail _ first arguments, rooted, present, within => by
      have parts := Value.within_list.mp within
      have ⟨head, _⟩ := first.grown rooted present (parts _ (by simp))
      have ⟨args, _⟩ := arguments.grown head.rooted (head.present present)
        fun form member => head.within (parts form (by simp [member]))
      exact ⟨head.trans args, nofun⟩
  | .primitive _ first arguments result, rooted, present, within => by
      have parts := Value.within_list.mp within
      have ⟨head, _⟩ := first.grown rooted present (parts _ (by simp))
      have ⟨args, _⟩ := arguments.grown head.rooted (head.present present)
        fun form member => head.within (parts form (by simp [member]))
      refine ⟨head.trans args, fun v same => ?_⟩
      obtain called | failed := result
      · exact (Builtin.call_isAtom (called.symm.trans same)).within _
      · cases failed.symm.trans same
  | .call _ first arguments opened result, rooted, present, within => by
      have parts := Value.within_list.mp within
      have ⟨head, function⟩ := first.grown rooted present (parts _ (by simp))
      have ⟨args, values⟩ := arguments.grown head.rooted (head.present present)
        fun form member => head.within (parts form (by simp [member]))
      have ⟨opening, body⟩ :=
        Grown.openCall args.rooted (args.within (function _ rfl)) (values _ rfl) opened
      have ⟨rest, value⟩ := result.grown opening.rooted (Store.openCall_present opened) body
      exact ⟨head.trans (args.trans (opening.trans rest)), value⟩

theorem EvaluatesAll.grown : EvaluatesAll forms frame s outcome t → s.RootedAt root →
    frame < s.frames.size → (∀ form ∈ forms, form.Within s.frames.size) →
    Grown root s t ∧ ∀ args, outcome = .ok args → ∀ v ∈ args, v.Within t.frames.size
  | .tooDeep, rooted, _, _ => ⟨.refl rooted, nofun⟩
  | .nil, rooted, _, _ => by
      refine ⟨.refl rooted, fun args same => ?_⟩
      cases same
      exact List.forall_mem_nil _
  | .firstFails first, rooted, present, within =>
      ⟨(first.grown rooted present (within _ List.mem_cons_self)).1, nofun⟩
  | .cons first rest, rooted, present, within => by
      rename_i outcome
      have ⟨one, value⟩ := first.grown rooted present (within _ List.mem_cons_self)
      have ⟨others, values⟩ := rest.grown one.rooted (one.present present)
        fun form member => one.within (within form (List.mem_cons_of_mem _ member))
      refine ⟨one.trans others, fun args same => ?_⟩
      cases outcome with
      | error e => cases same
      | ok args =>
          cases same
          exact List.forall_mem_cons.mpr ⟨others.within (value _ rfl), values _ rfl⟩

end

mutual

/-- At every moment all closures at hand were made in frames that are there. -/
theorem Visits.grown : Visits expr frame s u held → s.RootedAt root → frame < s.frames.size →
    expr.Within s.frames.size → Grown root s u ∧ ∀ v ∈ held, v.Within u.frames.size
  | .start, rooted, _, _ => ⟨.refl rooted, List.forall_mem_nil _⟩
  | .finish evaluated, rooted, present, within => by
      have ⟨grown, result⟩ := evaluated.grown rooted present within
      exact ⟨grown, List.forall_mem_singleton.mpr (result _ rfl)⟩
  | .test _ inside, rooted, present, within | .value _ inside, rooted, present, within
  | .head _ inside, rooted, present, within =>
      inside.grown rooted present (Value.within_list.mp within _ (by simp))
  | .branch _ tested inside, rooted, present, within => by
      have parts := Value.within_list.mp within
      have ⟨test, _⟩ := tested.grown rooted present (parts _ (by simp))
      have ⟨rest, held⟩ := inside.grown test.rooted (test.present present)
        (test.within (parts _ (by split <;> simp)))
      exact ⟨test.trans rest, List.forall_mem_cons.mpr ⟨Value.within_boolean _, held⟩⟩
  | .arguments _ first inside, rooted, present, within => by
      have parts := Value.within_list.mp within
      have ⟨head, function⟩ := first.grown rooted present (parts _ (by simp))
      have ⟨rest, held⟩ := inside.grown head.rooted (head.present present)
        fun form member => head.within (parts form (by simp [member]))
      exact ⟨head.trans rest, List.forall_mem_cons.mpr ⟨rest.within (function _ rfl), held⟩⟩
  | .body _ first arguments opened inside, rooted, present, within => by
      have parts := Value.within_list.mp within
      have ⟨head, function⟩ := first.grown rooted present (parts _ (by simp))
      have ⟨args, values⟩ := arguments.grown head.rooted (head.present present)
        fun form member => head.within (parts form (by simp [member]))
      have closure := args.within (function _ rfl)
      have ⟨opening, body⟩ := Grown.openCall args.rooted closure (values _ rfl) opened
      have ⟨rest, held⟩ := inside.grown opening.rooted (Store.openCall_present opened) body
      have later := opening.trans rest
      refine ⟨head.trans (args.trans later), List.forall_mem_cons.mpr ⟨later.within closure, ?_⟩⟩
      exact List.forall_mem_append.mpr ⟨fun v member => later.within (values _ rfl v member), held⟩

theorem VisitsAll.grown : VisitsAll forms frame s u held → s.RootedAt root →
    frame < s.frames.size → (∀ form ∈ forms, form.Within s.frames.size) →
    Grown root s u ∧ ∀ v ∈ held, v.Within u.frames.size
  | .start, rooted, _, _ => ⟨.refl rooted, List.forall_mem_nil _⟩
  | .first inside, rooted, present, within =>
      inside.grown rooted present (within _ List.mem_cons_self)
  | .later first inside, rooted, present, within => by
      have ⟨one, value⟩ := first.grown rooted present (within _ List.mem_cons_self)
      have ⟨rest, held⟩ := inside.grown one.rooted (one.present present)
        fun form member => one.within (within form (List.mem_cons_of_mem _ member))
      exact ⟨one.trans rest, List.forall_mem_cons.mpr ⟨rest.within (value _ rfl), held⟩⟩

end

end

end MiniLisp
