import MiniLisp.Store.Basic

namespace MiniLisp

namespace Store

variable {s t : Store} {i j : FrameId} {x y : Symbol} {v : Value}

@[simp]
theorem frames_note (s : Store) (e : Event) : (s.note e).frames = s.frames :=
  rfl

@[simp]
theorem history_note (s : Store) (e : Event) : (s.note e).history = s.history.push e :=
  rfl

@[simp]
theorem history_bind (s : Store) (i : FrameId) (x : Symbol) (v : Value) :
    (s.bind i x v).history = s.history.push (.bound i x v) :=
  rfl

@[simp]
theorem size_bind (s : Store) (i : FrameId) (x : Symbol) (v : Value) :
    (s.bind i x v).frames.size = s.frames.size := by
  simp [bind]

theorem frame_bind (s : Store) (i j : FrameId) (x : Symbol) (v : Value) :
    (s.bind i x v).frames[j]? =
      if i = j then s.frames[j]?.map fun f => { f with bindings := f.bindings.insert x v }
      else s.frames[j]? := by
  simp only [bind, frames_note, Array.getElem?_modify]

theorem frame_bind_other (different : i ≠ j) :
    (s.bind i x v).frames[j]? = s.frames[j]? := by
  rw [frame_bind, if_neg different]

@[simp]
theorem outer?_bind (s : Store) (i j : FrameId) (x : Symbol) (v : Value) :
    (s.bind i x v).outer? j = s.outer? j := by
  unfold outer?
  rw [frame_bind]
  split
  · cases s.frames[j]? <;> rfl
  · rfl

theorem binding?_bind (within : i < s.frames.size) :
    (s.bind i x v).binding? j y = if i = j ∧ x = y then some v else s.binding? j y := by
  unfold binding?
  rw [frame_bind]
  by_cases here : i = j
  · subst here
    simp only [Array.getElem?_eq_getElem within, Option.map_some, Option.bind_some,
      Table.find?_insert, if_true, true_and, eq_comm]
  · simp only [here, false_and, if_false]

theorem outer?_push {frame : Frame} (frames : t.frames = s.frames.push frame) (j : FrameId) :
    t.outer? j = if j = s.frames.size then frame.outer else s.outer? j := by
  unfold outer?
  rw [frames, Array.getElem?_push]
  split <;> rfl

theorem binding?_push {frame : Frame} (frames : t.frames = s.frames.push frame) (j : FrameId)
    (x : Symbol) :
    t.binding? j x = if j = s.frames.size then frame.bindings.find? x else s.binding? j x := by
  unfold binding?
  rw [frames, Array.getElem?_push]
  split <;> rfl

/-- Nothing is bound in a frame that is not there. -/
theorem frames_bind_absent (absent : ¬ i < s.frames.size) : (s.bind i x v).frames = s.frames := by
  simp only [bind, frames_note, Array.modify, Array.modifyM, dif_neg absent]
  rfl

theorem install_induction {P : Store → Prop} (holds : P s)
    (kept : ∀ t b, P t → P (t.bind i b.symbol (.builtin b))) : P (s.install i) :=
  List.foldlRecOn Builtin.all _ holds fun t before b _ => kept t b before

/-- The frame that a call adds, and the event that it leaves. -/
theorem openCall_eq_ok {outer : FrameId} {params : Value} {args : List Value}
    (opened : s.openCall outer params args = (.ok i, t)) :
    ∃ formals frame, params.formals? = some formals ∧ formals.length = args.length ∧
      frame = { bindings := .ofList (formals.zip args), outer := some outer } ∧
      i = s.frames.size ∧ t.frames = s.frames.push frame ∧
      t.history = s.history.push (.called i frame) := by
  unfold openCall at opened
  split at opened
  · simp at opened
  · rename_i formals found
    split at opened
    · rename_i arity
      simp only [Prod.mk.injEq, Except.ok.injEq] at opened
      obtain ⟨rfl, rfl⟩ := opened
      exact ⟨formals, _, found, arity, rfl, rfl, rfl, rfl⟩
    · simp at opened

theorem openCall_exists (s : Store) (outer : FrameId) {params : Value} {args : List Value}
    {formals : List Symbol} (found : params.formals? = some formals)
    (arity : formals.length = args.length) :
    ∃ i t, s.openCall outer params args = (.ok i, t) := by
  simp only [openCall, found, if_pos arity]
  exact ⟨_, _, rfl⟩

theorem openCall_eq_error {outer : FrameId} {params : Value} {args : List Value} {e : Error}
    (refused : s.openCall outer params args = (.error e, t)) : t = s := by
  unfold openCall at refused
  split at refused
  · exact (Prod.mk.inj refused).2.symm
  · split at refused
    · simp at refused
    · exact (Prod.mk.inj refused).2.symm

section

variable {outer : FrameId} {params : Value} {args : List Value}
variable (opened : s.openCall outer params args = (.ok i, t))
include opened

theorem openCall_fresh : i = s.frames.size := by
  obtain ⟨_, _, _, _, _, fresh, _⟩ := openCall_eq_ok opened
  exact fresh

theorem size_openCall : t.frames.size = s.frames.size + 1 := by
  obtain ⟨_, _, _, _, _, _, frames, _⟩ := openCall_eq_ok opened
  rw [frames, Array.size_push]

theorem openCall_present : i < t.frames.size := by
  rw [openCall_fresh opened, size_openCall opened]
  exact Nat.lt_succ_self _

theorem frame_openCall (old : j < s.frames.size) : t.frames[j]? = s.frames[j]? := by
  obtain ⟨_, _, _, _, _, _, frames, _⟩ := openCall_eq_ok opened
  rw [frames, Array.getElem?_push_lt old, Array.getElem?_eq_getElem old]

theorem outer?_openCall (old : j < s.frames.size) : t.outer? j = s.outer? j := by
  unfold outer?
  rw [frame_openCall opened old]

theorem binding?_openCall (old : j < s.frames.size) : t.binding? j x = s.binding? j x := by
  unfold binding?
  rw [frame_openCall opened old]

theorem history_openCall : ∃ frame, t.history = s.history.push (.called i frame) := by
  obtain ⟨_, frame, _, _, _, _, _, history⟩ := openCall_eq_ok opened
  exact ⟨frame, history⟩

end

theorem present_of_isSome_binding? (bound : (s.binding? j x).isSome) : j < s.frames.size := by
  apply Classical.byContradiction
  intro absent
  simp [binding?, Array.getElem?_eq_none (Nat.le_of_not_lt absent)] at bound

end Store

end MiniLisp
