import MiniLisp.Proofs.Evaluation.Simulation
import MiniLisp.Proofs.Store.Lookup

namespace MiniLisp

def Event.isLoading : Event → Bool
  | .loadingPrelude _ => true
  | _ => false

namespace Store

/-- The store without the notes on the loading of preludes. -/
def quiet (s : Store) : Store :=
  { s with history := s.history.filter fun e => !e.isLoading }

variable {s s' t t' : Store} {i i' : FrameId}

theorem quiet_note_loading (s : Store) (title : String) :
    (s.note (.loadingPrelude title)).quiet = s.quiet := by
  simp [quiet, note, Event.isLoading]

theorem quiet_note {e : Event} (other : e.isLoading = false) (s : Store) :
    (s.note e).quiet = s.quiet.note e := by
  simp [quiet, note, other]

theorem quiet_bind (s : Store) (i : FrameId) (x : Symbol) (v : Value) :
    (s.bind i x v).quiet = s.quiet.bind i x v :=
  quiet_note rfl _

theorem quiet_openCall {outer : FrameId} {params : Value} {args : List Value}
    (opened : s.openCall outer params args = (.ok i, t)) :
    s.quiet.openCall outer params args = (.ok i, t.quiet) := by
  obtain ⟨formals, frame, named, length, rfl, rfl, frames, history⟩ := openCall_eq_ok opened
  simp [openCall, quiet, note, Event.isLoading, named, length, frames, history]

theorem openCall_of_quiet (same : s.quiet = s'.quiet) {outer : FrameId} {params : Value}
    {args : List Value} (opened : s.openCall outer params args = (.ok i, t))
    (opened' : s'.openCall outer params args = (.ok i', t')) : i = i' ∧ t.quiet = t'.quiet := by
  have called := quiet_openCall opened
  rw [same, quiet_openCall opened'] at called
  obtain ⟨number, left⟩ := Prod.mk.inj called
  exact ⟨(Except.ok.inj number).symm, left.symm⟩

theorem lookup_quiet (s : Store) (i : FrameId) (x : Symbol) : s.quiet.lookup i x = s.lookup i x := by
  have outer (j : FrameId) : s.quiet.outer? j = s.outer? j := rfl
  have chain : s.quiet.chain i = s.chain i := walk_congr outer _ i
  unfold lookup lookup? find?
  rw [chain]
  rfl

end Store

/-- Two evaluations of one value in stores that differ in notes only. -/
def noteRelations : Relations OneWorld where
  stores _ s s' := s.quiet = s'.quiet
  values _ v v' := v = v'
  code _ expr i expr' i' := expr = expr' ∧ i = i'
  errors e e' := e = e'

theorem note_step (expr : Value) (i : FrameId) : noteRelations.Step .world expr i expr i := by
  apply Relations.Step.refl
  · exact fun _ => rfl
  · intro x s s' _ same
    have same : s.quiet = s'.quiet := same
    rw [← s.lookup_quiet, ← s'.lookup_quiet, same]
    cases s'.quiet.lookup i x with
    | error e => exact .error rfl
    | ok v => exact .ok rfl
  · exact fun _ _ => ⟨rfl, rfl⟩
  · exact fun _ _ _ => ⟨rfl, rfl⟩
  · intro head x form _ _ s s' v v' _ same value
    have same : s.quiet = s'.quiet := same
    cases value
    refine ⟨?_, rfl⟩
    change (s.bind i x v).quiet = (s'.bind i x v).quiet
    rw [Store.quiet_bind, Store.quiet_bind, same]
  · exact fun _ => rfl

def noting : Simulation OneWorld where
  toRelations := noteRelations
  values_mono _ same := same
  code_mono _ same := same
  atom _ := rfl
  alike same := same ▸ .refl _
  step same := by
    obtain ⟨rfl, rfl⟩ := same
    exact note_step _ _
  arity same := by
    cases same
    rfl
  call function stores arguments opened opened' := by
    cases function
    cases List.forall₂_eq_eq_eq ▸ arguments
    obtain ⟨called, left⟩ := Store.openCall_of_quiet stores opened opened'
    exact ⟨.world, le_refl _, left, rfl, called⟩
  errors_refl _ := rfl
  errors_depth same := same ▸ rfl
  errors_shown same := by
    cases same
    exact ⟨rfl, rfl, fun _ => rfl⟩

theorem noting_outcomes {outcome outcome' : Except Error Value}
    (outcomes : noting.Outcomes (noting.values .world) outcome outcome') : outcome = outcome' := by
  cases outcomes with
  | ok same | error same => exact congrArg _ same

theorem evaluate_quiet {s s' : Store} (same : s.quiet = s'.quiet) (depth : Nat) (expr : Value)
    (frame : FrameId) :
    let run := (evaluate depth expr frame).run.run s
    let run' := (evaluate depth expr frame).run.run s'
    run.1 = run'.1 ∧ run.2.quiet = run'.2.quiet := by
  intro run run'
  obtain ⟨_, _, stores, outcomes⟩ := noting.evaluate (w := .world) ⟨rfl, rfl⟩ same depth
  exact ⟨noting_outcomes outcomes, stores⟩

end MiniLisp
