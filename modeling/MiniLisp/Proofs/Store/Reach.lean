import Mathlib.Logic.Relation
import MiniLisp.Proofs.Store.Lookup

/-! # What can be reached in a store

A frame leads to its outer frame and to the frames that the closures it binds were made in. In a
well-formed store all of these are there, and outer frames are older than the frames around which
they lie. What is added to such a store can then not be reached from what was there before.
-/

namespace MiniLisp

/-- A closure in the value was made in the frame. -/
inductive Value.Captures : Value → FrameId → Prop where
  | frame : Captures (.closure params body i) i
  | params (inside : Captures params i) : Captures (.closure params body frame) i
  | body (inside : Captures body i) : Captures (.closure params body frame) i
  | item (member : v ∈ items) (inside : Captures v i) : Captures (.list items) i

/-- All closures in the value were made in the first `n` frames. -/
def Value.Within (n : Nat) (v : Value) : Prop :=
  ∀ i, v.Captures i → i < n

namespace Value

variable {n : Nat}

@[simp]
theorem within_boolean (b : Bool) : (Value.boolean b).Within n := by
  intro i captured
  contradiction

@[simp]
theorem within_symbol (x : Symbol) : (Value.symbol x).Within n := by
  intro i captured
  contradiction

@[simp]
theorem within_list {items : List Value} :
    (Value.list items).Within n ↔ ∀ v ∈ items, v.Within n := by
  constructor
  · intro within v member i captured
    exact within i (.item member captured)
  · intro within i captured
    cases captured with
    | item member inside => exact within _ member i inside

@[simp]
theorem within_closure {params body : Value} {frame : FrameId} :
    (Value.closure params body frame).Within n ↔ frame < n ∧ params.Within n ∧ body.Within n := by
  constructor
  · intro within
    exact ⟨within frame .frame, fun i inside => within i (.params inside),
      fun i inside => within i (.body inside)⟩
  · intro within i captured
    cases captured with
    | frame => exact within.1
    | params inside => exact within.2.1 i inside
    | body inside => exact within.2.2 i inside

theorem Within.mono {v : Value} {m : Nat} (within : v.Within n) (more : n ≤ m) : v.Within m :=
  fun i captured => Nat.lt_of_lt_of_le (within i captured) more

end Value

namespace Store

/-- Outer frames are older than the frames around which they lie, and all closures were made in
frames that are there. -/
structure WellFormed (s : Store) : Prop where
  ordered : s.Ordered
  within : s.Binds fun _ v => v.Within s.frames.size

/-- The frame leads to the other in one step. -/
inductive Points (s : Store) : FrameId → FrameId → Prop where
  | outer (link : s.outer? i = some j) : Points s i j
  | binding (bound : s.binding? i x = some v) (captured : v.Captures j) : Points s i j

/-- The frame leads to the other through outer frames, bindings and the frames that closures were
made in. -/
def Reaches (s : Store) : FrameId → FrameId → Prop :=
  Relation.ReflTransGen s.Points

/-- Some closure in the value was made in a frame that leads to this one. -/
def ReachesFrom (s : Store) (v : Value) (j : FrameId) : Prop :=
  ∃ i, v.Captures i ∧ s.Reaches i j

section

variable {s t : Store} {i j : FrameId}

theorem WellFormed.empty : WellFormed {} where
  ordered i o link := by contradiction
  within := Binds.empty

theorem WellFormed.allocate (formed : s.WellFormed) {outer : Option FrameId}
    (older : ∀ o, outer = some o → o < s.frames.size) : (s.allocate outer).2.WellFormed where
  ordered := formed.ordered.push rfl older
  within := by
    refine Binds.allocate (formed.within.mono fun x v within => ?_) outer
    have grown : s.frames.size ≤ (s.allocate outer).2.frames.size := by simp [Store.allocate]
    exact within.mono grown

theorem WellFormed.binding (formed : s.WellFormed) {x : Symbol} {v : Value}
    (bound : s.binding? i x = some v) : v.Within s.frames.size := by
  obtain ⟨frame, present, member⟩ := entry_of_binding? bound
  exact formed.within i frame present x v member

variable (formed : s.WellFormed) (kept : ∀ i < s.frames.size, t.frames[i]? = s.frames[i]?)
include formed kept

theorem WellFormed.points_lt (old : i < s.frames.size) (points : t.Points i j) :
    j < s.frames.size := by
  cases points with
  | outer link =>
      rw [outer?, kept i old] at link
      exact Nat.lt_trans (formed.ordered i j link) old
  | binding bound captured =>
      rw [binding?, kept i old] at bound
      exact formed.binding bound j captured

/-- From the frames of a well-formed store no other frames are reached, whatever is added to it. -/
theorem WellFormed.reaches_lt (old : i < s.frames.size) (reaches : t.Reaches i j) :
    j < s.frames.size := by
  induction reaches with
  | refl => exact old
  | tail _ step ih => exact formed.points_lt kept ih step

theorem WellFormed.reachesFrom_lt {v : Value} (within : v.Within s.frames.size)
    (reaches : t.ReachesFrom v j) : j < s.frames.size := by
  obtain ⟨i, captured, reaches⟩ := reaches
  exact formed.reaches_lt kept (within i captured) reaches

end

end Store

end MiniLisp
