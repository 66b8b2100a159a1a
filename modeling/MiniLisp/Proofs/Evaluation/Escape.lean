import MiniLisp.Proofs.Evaluation.Invariant
import MiniLisp.Proofs.Evaluation.Writes
import MiniLisp.Proofs.Store.Reach

namespace MiniLisp

/-- The value holds the first `n` frames only, or it is a closure whose code holds these only. -/
inductive Value.Anchored (n : Nat) : Value → Prop where
  | within (within : v.Within n) : Anchored n v
  | closure (params : formals.Within n) (body : code.Within n) :
      Anchored n (.closure formals code frame)

namespace Value

variable {n : Nat} {v : Value}

theorem IsAtom.within (atom : v.IsAtom) (n : Nat) : v.Within n := by
  intro i captured
  cases atom <;> contradiction

theorem Anchored.code {formals body : Value} {i : FrameId}
    (anchored : Anchored n (.closure formals body i)) : formals.Within n ∧ body.Within n := by
  cases anchored with
  | within within => exact (within_closure.mp within).2
  | closure params body => exact ⟨params, body⟩

theorem Anchored.within_of_not_closure (anchored : Anchored n v)
    (noClosure : ∀ params body frame, v ≠ .closure params body frame) : v.Within n := by
  cases anchored with
  | within within => exact within
  | closure => exact absurd rfl (noClosure _ _ _)

end Value

/-- Code that holds the first `n` frames only comes to values whose own code does. -/
def anchorage (n : Nat) : Discipline where
  code := Value.Within n
  name _ := True
  result := Value.Anchored n
  error _ := True
  item within member := Value.within_list.mp within _ member
  spelled _ := trivial
  atom atom := .within (atom.within n)
  symbol _ := .within (Value.within_symbol _)
  closure := .closure
  opened := Value.Anchored.code
  tooDeep := trivial
  unbound _ := trivial
  refused _ _ := trivial
  inapplicable _ _ := trivial
  notBoolean _ := trivial
  called _ _ := trivial

theorem Store.WellFormed.anchored {s : Store} (formed : s.WellFormed) :
    (anchorage s.frames.size).Holds s :=
  fun i frame present x v member => ⟨trivial, .within (formed.within i frame present x v member)⟩

section

variable {s t : Store} {params body : Value} {outer called : FrameId} {args : List Value}
variable (opened : s.openCall outer params args = (.ok called, t)) (depth : Nat)
include opened

theorem call_writes :
    ∀ i < s.frames.size, ((evaluate depth body called).run.run t).2.frames[i]? = s.frames[i]? := by
  intro i old
  let run := (evaluate depth body called).run.run t
  have evaluated : Evaluates body called t run.1 run.2 := evaluate_evaluates rfl
  have before : i < t.frames.size := by
    rw [Store.size_openCall opened]
    exact Nat.lt_succ_of_lt old
  have kept := (evaluated.writes (Store.openCall_present opened)).frame_eq before
  refine (kept fun x inside => ?_).trans (Store.frame_openCall opened old)
  obtain ⟨here, _⟩ | fresh := inside
  · exact Nat.ne_of_lt old (here.trans (Store.openCall_fresh opened))
  · exact Nat.not_lt_of_le fresh before

theorem call_anchored (formed : s.WellFormed) (code : params.Within s.frames.size)
    (inside : body.Within s.frames.size) (arguments : ∀ v ∈ args, v.Within s.frames.size) :
    (anchorage s.frames.size).Expects (Value.Anchored s.frames.size)
      ((evaluate depth body called).run.run t).1 := by
  have opening := formed.anchored.openCall opened code fun v member => .within (arguments v member)
  let run := (evaluate depth body called).run.run t
  have evaluated : Evaluates body called t run.1 run.2 := evaluate_evaluates rfl
  exact (evaluated.keeps inside opening).2

end

/-- The body of a call changes no frame that was there before the call. Afterwards none of these
frames leads to a frame that the call made, and nor does the value that the call returned, unless
it is a closure. -/
theorem call_frames_escape_in_closures {s t : Store} {params body : Value}
    {outer called : FrameId} {args : List Value} (formed : s.WellFormed)
    (function : (Value.closure params body outer).Within s.frames.size)
    (arguments : ∀ v ∈ args, v.Within s.frames.size)
    (opened : s.openCall outer params args = (.ok called, t)) (depth : Nat) :
    let run := (evaluate depth body called).run.run t
    (∀ i < s.frames.size, run.2.frames[i]? = s.frames[i]?) ∧
    ∀ made, s.frames.size ≤ made →
      (∀ i < s.frames.size, ¬ run.2.Reaches i made) ∧
      ∀ v, run.1 = .ok v → (∀ params body frame, v ≠ .closure params body frame) →
        ¬ run.2.ReachesFrom v made := by
  intro run
  have kept : ∀ i < s.frames.size, run.2.frames[i]? = s.frames[i]? := call_writes opened depth
  refine ⟨kept, fun made new => ⟨?_, ?_⟩⟩
  · intro i old reaches
    exact Nat.not_lt_of_le new (formed.reaches_lt kept old reaches)
  · intro v returned noClosure reaches
    obtain ⟨_, params, body⟩ := Value.within_closure.mp function
    have anchored := call_anchored opened depth formed params body arguments
    change (anchorage s.frames.size).Expects _ run.1 at anchored
    rw [returned] at anchored
    have within := anchored.within_of_not_closure noClosure
    exact Nat.not_lt_of_le new (formed.reachesFrom_lt kept within reaches)

/-- A call whose body makes a call of its own: neither frame escapes. -/
theorem call_frames_escape_in_closures_nested :
    let x : Value := .symbol ⟨"x"⟩
    let inner : Value := .list [.symbol ⟨"lambda"⟩, .list [.symbol ⟨"y"⟩], x]
    let body : Value := .list [inner, x]
    let s := (Store.allocate {} none).2
    let opened := s.openCall 0 (.list [x]) [.boolean true]
    let run := (evaluate 10 body 1).run.run opened.2
    (s.WellFormed ∧ (Value.closure (.list [x]) body 0).Within s.frames.size ∧
      opened.1 = .ok 1 ∧ run.1 = .ok (.boolean true) ∧ run.2.frames.size = 3) ∧
    run.2.frames[0]? = s.frames[0]? ∧ ¬ run.2.Reaches 0 2 ∧
      ¬ run.2.ReachesFrom (.boolean true) 2 := by
  intro x inner body s opened run
  have formed : s.WellFormed := Store.WellFormed.empty.allocate (by simp)
  have function : (Value.closure (.list [x]) body 0).Within s.frames.size := by
    simp [x, inner, body, s, Store.allocate]
  have arguments : ∀ v ∈ [Value.boolean true], v.Within s.frames.size := by simp
  have returned : run.1 = .ok (.boolean true) := rfl
  obtain ⟨kept, apart⟩ := call_frames_escape_in_closures (t := opened.2) formed function arguments
    rfl 10
  obtain ⟨unreached, unreturned⟩ := apart 2 (by decide)
  exact ⟨⟨formed, function, rfl, returned, rfl⟩, kept 0 (by decide), unreached 0 (by decide),
    unreturned _ returned (by simp)⟩

end MiniLisp
