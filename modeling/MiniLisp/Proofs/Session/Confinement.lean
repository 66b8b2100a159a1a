import MiniLisp.Proofs.Session.Run

namespace MiniLisp

/-- Between two stores work was done in `frame` alone, where it bound only symbols that are named,
and in frames that are new. -/
structure Confined (frame : FrameId) (named : Symbol → Prop) (s t : Store) : Prop where
  kept : s.frames.size ≤ t.frames.size
  others : ∀ i, i < s.frames.size → i ≠ frame → t.frames[i]? = s.frames[i]?
  unnamed : ∀ x, ¬ named x → t.binding? frame x = s.binding? frame x
  bound : ∀ i x, (s.binding? i x).isSome → (t.binding? i x).isSome
  outer : ∀ i, i < s.frames.size → t.outer? i = s.outer? i
  recorded : s.history.toList <+: t.history.toList
  written : ∀ i x v, .bound i x v ∈ s.eventsSince t → i = frame ∧ named x ∨ s.frames.size ≤ i

theorem scope_closed {s : Store} {frame i : FrameId} {named : Symbol → Prop}
    (old : i < s.frames.size) (different : i ≠ frame) (x : Symbol) :
    ¬ scope s frame named i x := by
  rintro (⟨same, _⟩ | fresh)
  · exact different same
  · exact Nat.not_lt_of_le fresh old

theorem Writes.confined {s t : Store} {frame : FrameId} {named : Symbol → Prop}
    (writes : Writes (scope s frame named) s t) (present : frame < s.frames.size) :
    Confined frame named s t where
  kept := writes.size_le
  others _ old different := writes.frame_eq old (scope_closed old different)
  unnamed x absent := by
    apply writes.binding?_eq present
    rintro (⟨_, named⟩ | fresh)
    · exact absent named
    · exact Nat.not_lt_of_le fresh present
  bound _ _ := writes.isSome_binding?
  outer _ old := writes.outer?_eq old
  recorded := writes.history_prefix
  written _ _ _ := writes.allowed_of_bound

/-- Whatever becomes of an evaluation, it is confined to its frame and to the symbols that its value
exposes. After a line of a session no frame but the root is written again. -/
theorem frames_encapsulated :
    (∀ (depth : Nat) (expr : Value) (frame : FrameId) (s : Store), frame < s.frames.size →
      Confined frame expr.Exposes s ((evaluate depth expr frame).run.run s).2) ∧
    ∀ (depth : Nat) (earlier later : List Session.Input),
      let s := ((Session.start depth).after earlier).store
      let t := (((Session.start depth).after earlier).after later).store
      (∀ i, i < s.frames.size → i ≠ Session.root → t.frames[i]? = s.frames[i]?) ∧
      s.history.toList <+: t.history.toList ∧
      ∀ i x v, .bound i x v ∈ s.eventsSince t → i = Session.root ∨ s.frames.size ≤ i := by
  constructor
  · intro depth expr frame s present
    let run := (evaluate depth expr frame).run.run s
    have evaluated : Evaluates expr frame s run.1 run.2 := evaluate_evaluates rfl
    exact (evaluated.writes present).confined present
  · intro depth earlier later s t
    have rooted := Session.hasRoot_after depth earlier
    have confined := ((Session.after_runs _ later).leads rooted).confined rooted
    refine ⟨confined.others, confined.recorded, ?_⟩
    intro i x v member
    exact (confined.written i x v member).imp And.left id

/-- A definition in the root, and a line that follows one that made a frame. -/
theorem frames_encapsulated_definition :
    (Session.root < (Session.start 10).store.frames.size ∧
      Confined Session.root (Value.list [.symbol ⟨"define"⟩, .symbol ⟨"y"⟩, .boolean true]).Exposes
        (Session.start 10).store
        ((evaluate 10 (.list [.symbol ⟨"define"⟩, .symbol ⟨"y"⟩, .boolean true])
          Session.root).run.run (Session.start 10).store).2) ∧
    1 < ((Session.start 10).after [.line "((lambda (x) x) true)"]).store.frames.size ∧
      1 ≠ Session.root ∧
      (((Session.start 10).after [.line "((lambda (x) x) true)"]).after
        [.line "(define y false)"]).store.frames[1]? =
        ((Session.start 10).after [.line "((lambda (x) x) true)"]).store.frames[1]? := by
  have present : Session.root < (Session.start 10).store.frames.size := by decide +kernel
  have framed : 1 < ((Session.start 10).after [.line "((lambda (x) x) true)"]).store.frames.size := by
    decide +kernel
  refine ⟨⟨present, ?_⟩, framed, by decide, ?_⟩
  · exact frames_encapsulated.1 10 _ _ _ present
  · exact (frames_encapsulated.2 10 [.line "((lambda (x) x) true)"] [.line "(define y false)"]).1
      1 framed (by decide)

end MiniLisp
