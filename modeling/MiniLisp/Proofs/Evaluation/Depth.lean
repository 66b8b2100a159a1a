import MiniLisp.Proofs.Evaluation.Writes

/-! # More depth

Two evaluations of a value that differ in their depth alone do the same until the one with less of
it stops. From there on the other continues: it does nothing to the store but to add events to those
that the first one left. `Store.replay` says what events do, so that a store is known from where an
evaluation began and from the events since then.

The comparison is made of whole computations, with `Eval.CutOff`, and follows the evaluator: what is
put together from parts that are cut off is itself cut off.
-/

namespace MiniLisp

namespace Store

/-- The store after an event. -/
def redo (s : Store) : Event → Store
  | .bound i x v => s.bind i x v
  | .called i frame => { s with frames := s.frames.push frame }.note (.called i frame)
  | e => s.note e

/-- The store after some events, the oldest of them first. -/
def replay (s : Store) (events : List Event) : Store :=
  events.foldl redo s

variable {s t u : Store}

theorem history_redo (s : Store) (e : Event) : (s.redo e).history = s.history.push e := by
  cases e <;> rfl

theorem history_replay (s : Store) (events : List Event) :
    (s.replay events).history.toList = s.history.toList ++ events := by
  induction events generalizing s with
  | nil => exact (List.append_nil _).symm
  | cons e rest ih =>
      change ((s.redo e).replay rest).history.toList = _
      rw [ih, history_redo, Array.toList_push, List.append_assoc, List.singleton_append]

theorem eventsSince_replay (s : Store) (events : List Event) :
    s.eventsSince (s.replay events) = events :=
  eventsSince_eq (s.history_replay events)

theorem replay_append (s : Store) (before after : List Event) :
    s.replay (before ++ after) = (s.replay before).replay after :=
  List.foldl_append

/-- Nothing but events leads from the one store to the other. -/
def Continues (s t : Store) : Prop :=
  ∃ events, t = s.replay events

namespace Continues

theorem refl : s.Continues s :=
  ⟨[], rfl⟩

theorem trans (first : s.Continues t) (second : t.Continues u) : s.Continues u := by
  obtain ⟨before, rfl⟩ := first
  obtain ⟨after, rfl⟩ := second
  exact ⟨before ++ after, (s.replay_append before after).symm⟩

theorem bind (i : FrameId) (x : Symbol) (v : Value) : s.Continues (s.bind i x v) :=
  ⟨[.bound i x v], rfl⟩

theorem openCall (outer : FrameId) (params : Value) (args : List Value) :
    s.Continues (s.openCall outer params args).2 := by
  unfold Store.openCall
  split
  · exact .refl
  · split
    · exact ⟨[.called _ _], rfl⟩
    · exact .refl

theorem eq_replay (continues : s.Continues t) : t = s.replay (s.eventsSince t) := by
  obtain ⟨events, rfl⟩ := continues
  rw [eventsSince_replay]

theorem eventsSince_prefix (first : s.Continues t) (second : t.Continues u) :
    s.eventsSince t <+: s.eventsSince u := by
  obtain ⟨before, rfl⟩ := first
  obtain ⟨after, rfl⟩ := second
  rw [← replay_append, eventsSince_replay, eventsSince_replay]
  exact List.prefix_append before after

end Continues

end Store

namespace Eval

variable {α β : Type} {s t : Store}

/-- `short` does what `long` does, up to the point where its depth is used up. -/
structure CutOff (short long : Eval α) : Prop where
  continues : ∀ s : Store, s.Continues (long.run.run s).2
  agrees : ∀ s : Store, long.run.run s = short.run.run s ∨
    (short.run.run s).1 = .error .tooDeep ∧ (short.run.run s).2.Continues (long.run.run s).2

namespace CutOff

variable {short long : Eval α}

theorem refl (continues : ∀ s : Store, s.Continues (long.run.run s).2) : CutOff long long :=
  ⟨continues, fun _ => .inl rfl⟩

theorem further (cut : CutOff short long) (s : Store) :
    (short.run.run s).2.Continues (long.run.run s).2 := by
  rcases cut.agrees s with same | ⟨_, behind⟩
  · rw [same]
    exact .refl
  · exact behind

theorem tooDeep (continues : ∀ s : Store, s.Continues (long.run.run s).2) :
    CutOff (throw .tooDeep) long :=
  ⟨continues, fun s => .inr ⟨rfl, continues s⟩⟩

theorem ofPure (a : α) : CutOff (pure a) (pure a) :=
  refl fun _ => .refl

theorem ofThrow (e : Error) : CutOff (throw e : Eval α) (throw e) :=
  refl fun _ => .refl

theorem raise {n m : Nat} (deeper : n ≤ m) (e : Error) :
    CutOff (Eval.raise n e : Eval α) (Eval.raise m e) := by
  by_cases shown : e.depth ≤ n
  · rw [Eval.raise, Eval.raise, if_pos shown, if_pos (Nat.le_trans shown deeper)]
    exact ofThrow e
  · rw [Eval.raise, if_neg shown]
    exact tooDeep fun _ => .refl

theorem lookup (frame : FrameId) (x : Symbol) :
    CutOff (Eval.lookup frame x) (Eval.lookup frame x) := by
  refine refl fun s => ?_
  have kept : ((Eval.lookup frame x).run.run s).2 = s := (Eval.run_lookup rfl).2
  rw [kept]
  exact .refl

/-- What comes after a computation continues what the computation leaves. -/
theorem continues_bind {further : α → Eval β} (first : t.Continues (long.run.run s).2)
    (rest : ∀ a (u : Store), u.Continues ((further a).run.run u).2) :
    t.Continues ((long >>= further).run.run s).2 := by
  cases run : long.run.run s with
  | mk result u =>
      rw [run] at first
      cases result with
      | error e => rwa [run_bind_of_error run]
      | ok a =>
          rw [run_bind_of_ok run]
          exact first.trans (rest a u)

theorem bind {next further : α → Eval β} (first : CutOff short long)
    (rest : ∀ a, CutOff (next a) (further a)) : CutOff (short >>= next) (long >>= further) where
  continues s := continues_bind (first.continues s) fun a => (rest a).continues
  agrees s := by
    have agrees := first.agrees s
    cases run : short.run.run s with
    | mk result u =>
        rw [run] at agrees
        rcases agrees with same | ⟨stopped, behind⟩
        · cases result with
          | error e =>
              rw [run_bind_of_error run, run_bind_of_error same]
              exact .inl rfl
          | ok a =>
              rw [run_bind_of_ok run, run_bind_of_ok same]
              exact (rest a).agrees u
        · cases stopped
          rw [run_bind_of_error run]
          exact .inr ⟨rfl, continues_bind behind fun a => (rest a).continues⟩

theorem mapM {f g : Value → Eval α} (each : ∀ v, CutOff (f v) (g v)) (values : List Value) :
    CutOff (values.mapM f) (values.mapM g) := by
  induction values with
  | nil => exact ofPure []
  | cons v rest ih =>
      rw [List.mapM_cons, List.mapM_cons]
      exact (each v).bind fun a => ih.bind fun others => ofPure (a :: others)

end CutOff

/-- Below the limit, more depth only carries a computation further. -/
def Deepens (limit : Nat) (m : Nat → Eval α) : Prop :=
  ∀ ⦃short long : Nat⦄, short ≤ long → long < limit → CutOff (m short) (m long)

/-- Without depth nothing is done, so only the steps that take depth are left to compare. -/
theorem Deepens.of_succ {limit : Nat} {m : Nat → Eval α} (stops : m 0 = throw .tooDeep)
    (step : ∀ ⦃short long : Nat⦄, short ≤ long → long + 1 < limit →
      CutOff (m (short + 1)) (m (long + 1))) : Deepens limit m := by
  intro short long deeper below
  match short, long with
  | 0, 0 =>
      rw [stops]
      exact .ofThrow _
  | 0, long + 1 =>
      rw [stops]
      exact .tooDeep (step (Nat.le_refl long) below).continues
  | short + 1, long + 1 => exact step (by omega) below

end Eval

open Eval

section

variable {limit : Nat}
variable (evaluates : ∀ expr frame, Deepens limit fun depth => evaluate depth expr frame)
include evaluates

theorem evaluateAll_deepens (forms : List Value) (frame : FrameId) :
    Deepens limit fun depth => evaluateAll depth forms frame := by
  -- The first two steps of depth do nothing.
  have second : Deepens (limit - 1) fun depth => evaluateAll (depth + 1) forms frame :=
    Deepens.of_succ rfl fun _ _ deeper below =>
      .mapM (fun form => evaluates form frame deeper (by omega)) forms
  exact Deepens.of_succ rfl fun _ _ deeper below => second deeper (by omega)

theorem applyClosure_deepens (params body : Value) (outer : FrameId) (forms : List Value)
    (frame : FrameId) :
    Deepens limit fun depth => applyClosure depth params body outer forms frame := by
  refine Deepens.of_succ rfl fun _ _ deeper below => ?_
  unfold applyClosure
  split
  · exact .ofThrow _
  · refine (evaluateAll_deepens evaluates forms frame deeper (by omega)).bind fun args => ?_
    refine CutOff.bind (.refl fun s => .openCall outer params args) fun called => ?_
    exact evaluates body called deeper (by omega)

theorem apply_deepens (function : Value) (forms : List Value) (frame : FrameId) :
    Deepens limit fun depth => apply depth function forms frame := by
  refine Deepens.of_succ rfl fun _ _ deeper below => ?_
  unfold apply
  split
  · rename_i b
    refine (evaluateAll_deepens evaluates forms frame deeper (by omega)).bind fun args => ?_
    split
    · exact .ofPure _
    · exact .raise deeper _
  · exact applyClosure_deepens evaluates _ _ _ forms frame deeper (by omega)
  · exact .raise deeper _

theorem evaluateForm_deepens (k : Keyword) (forms : List Value) (frame : FrameId) :
    Deepens limit fun depth => evaluateForm depth k forms frame := by
  refine Deepens.of_succ rfl fun _ _ deeper below => ?_
  by_cases right : forms.length = k.operandCount
  · cases k with
    | conditional =>
        obtain ⟨test, yes, no, rfl⟩ := List.length_eq_three.mp right
        rw [evaluateForm, evaluateForm]
        refine (evaluates test frame deeper (by omega)).bind fun v => ?_
        split
        · exact evaluates _ frame deeper (by omega)
        · exact .raise deeper _
    | definition =>
        obtain ⟨target, form, rfl⟩ := List.length_eq_two.mp right
        unfold evaluateForm
        split
        · refine (evaluates form frame deeper (by omega)).bind fun v => ?_
          refine CutOff.bind (.refl fun s => .bind frame _ v) fun _ => ?_
          exact .ofPure _
        · exact .raise deeper _
    | abstraction =>
        obtain ⟨params, body, rfl⟩ := List.length_eq_two.mp right
        exact .ofPure _
  · rw [evaluateForm_wrong right, evaluateForm_wrong right]
    exact .ofThrow _

end

/-- By induction on the limit, since arguments are evaluated two steps further down. -/
theorem evaluate_deepens (limit : Nat) (expr : Value) (frame : FrameId) :
    Deepens limit fun depth => evaluate depth expr frame := by
  induction limit generalizing expr frame with
  | zero => exact fun _ _ _ below => absurd below (Nat.not_lt_zero _)
  | succ limit ih =>
      refine Deepens.of_succ rfl fun _ _ deeper below => ?_
      have below := Nat.lt_of_succ_lt_succ below
      unfold evaluate
      split
      · exact .lookup frame _
      · exact .ofPure _
      · exact .ofPure _
      · exact .ofPure _
      · exact .ofThrow _
      · exact .ofThrow _
      · exact .ofThrow _
      · rename_i head forms
        split
        · exact evaluateForm_deepens ih _ forms frame deeper below
        · refine (ih head frame deeper below).bind fun function => ?_
          exact apply_deepens ih function forms frame deeper below

theorem evaluate_cutOff {short long : Nat} (deeper : short ≤ long) (expr : Value)
    (frame : FrameId) : CutOff (evaluate short expr frame) (evaluate long expr frame) :=
  evaluate_deepens (long + 1) expr frame deeper (Nat.lt_succ_self long)

theorem evaluate_of_ne_tooDeep {expr : Value} {frame : FrameId} {s : Store} {depth deeper : Nat}
    (ended : ((evaluate depth expr frame).run.run s).1 ≠ .error .tooDeep)
    (more : depth ≤ deeper) :
    (evaluate deeper expr frame).run.run s = (evaluate depth expr frame).run.run s :=
  ((evaluate_cutOff more expr frame).agrees s).resolve_right fun cut => ended cut.1

end MiniLisp
