import MiniLisp.Proofs.Evaluation.Kinds
import MiniLisp.Proofs.Session.Run

namespace MiniLisp

namespace Session

section

variable {s t : Session}

theorem evaluate_kinds {expr : Value} (clean : s.store.Clean) (readable : expr.Readable) :
    (s.evaluate expr).2.store.Clean ∧ Expected Value.IsResult (s.evaluate expr).1 :=
  (evaluate_evaluates rfl).kinds readable clean

theorem Runs.clean (runs : s.Runs t) (clean : s.store.Clean) : t.store.Clean := by
  induction runs with
  | refl => exact clean
  | note _ _ ih => exact ih
  | evaluate _ readable ih => exact (evaluate_kinds ih readable).1

theorem evaluateSource_kinds (clean : s.store.Clean) (source : String) :
    Expected Value.IsResult (s.evaluateSource source).1 := by
  cases read : Value.read (Token.tokenize source) with
  | error reason =>
      rw [evaluateSource_of_unreadable read]
      exact .unreadable
  | ok result =>
      rw [evaluateSource_of_read read]
      have noted := (s.ignoring_runs result.2).clean clean
      exact (evaluate_kinds noted (readable_of_read read)).2

theorem evaluatePrelude_kinds (clean : s.store.Clean) {text : String} {e : Error}
    (failed : (s.evaluatePrelude text).1 = .error e) : e.FromSource := by
  obtain ⟨reason, rfl⟩ | ⟨form, t, readable, runs, failed⟩ := evaluatePrelude_error failed
  · exact .unreadable
  · have outcome := (evaluate_kinds (runs.clean clean) readable).2
    rwa [failed] at outcome

end

theorem clean_start (depth : Nat) : (start depth).store.Clean :=
  Store.install_induction (Store.Binds.empty.allocate none) fun _ b clean =>
    clean.bind ⟨b.spellable, .builtin⟩

theorem clean_after (depth : Nat) (inputs : List Input) :
    ((start depth).after inputs).store.Clean :=
  ((start depth).after_runs inputs).clean (clean_start depth)

end Session

/-- The bindings of all frames, the results of lines and the errors are of the kinds that source
text can bring about, after any lines and preludes. -/
theorem session_kinds (depth : Nat) (inputs : List Session.Input) :
    let s := (Session.start depth).after inputs
    (∀ (i : FrameId) (frame : Frame), s.store.frames[i]? = some frame →
      ∀ x v, (x, v) ∈ frame.bindings.entries →
        x.Spellable ∧ v.IsResult ∧ ∀ items, v ≠ .list items) ∧
    (∀ source v, (s.evaluateSource source).1 = .ok v →
      v.IsResult ∧ (∀ items, v ≠ .list items) ∧ v.nesting = 0) ∧
    (∀ source e, (s.evaluateSource source).1 = .error e →
      e.FromSource ∧ e ≠ .bareClosure ∧ ∀ foreign, e ≠ .unevaluable foreign) ∧
    ∀ text e, (s.evaluatePrelude text).1 = .error e →
      e.FromSource ∧ e ≠ .bareClosure ∧ ∀ foreign, e ≠ .unevaluable foreign := by
  intro s
  have clean : s.store.Clean := Session.clean_after depth inputs
  refine ⟨?_, ?_, ?_, ?_⟩
  · intro i frame found x v member
    have ⟨spellable, result⟩ := clean i frame found x v member
    exact ⟨spellable, result, result.not_list⟩
  · intro source v evaluated
    have outcome := s.evaluateSource_kinds clean source
    rw [evaluated] at outcome
    have result : v.IsResult := outcome
    exact ⟨result, result.not_list, result.nesting_eq_zero⟩
  · intro source e failed
    have outcome := s.evaluateSource_kinds clean source
    rw [failed] at outcome
    have reached : e.FromSource := outcome
    exact ⟨reached, reached.ne_bareClosure, reached.ne_unevaluable⟩
  · intro text e failed
    have reached := s.evaluatePrelude_kinds clean failed
    exact ⟨reached, reached.ne_bareClosure, reached.ne_unevaluable⟩

/-- A definition that succeeds and one that fails, each in a session of its own. -/
theorem session_kinds_definition :
    (∃ frame v,
      ((Session.start 20).after [.line "(define x true)"]).store.frames[Session.root]? = some frame ∧
        (⟨"x"⟩, v) ∈ frame.bindings.entries ∧ v.IsResult) ∧
    (∃ v, (((Session.start 20).after []).evaluateSource "(define x true)").1 = .ok v ∧
      v.nesting = 0) ∧
    (∃ e, (((Session.start 20).after []).evaluateSource "(define x y)").1 = .error e ∧
      e ≠ .bareClosure) ∧
    ∃ e, (((Session.start 20).after []).evaluatePrelude "(define x y)").1 = .error e ∧
      e ≠ .bareClosure := by
  have bound : (((Session.start 20).after [.line "(define x true)"]).store.binding? Session.root
      ⟨"x"⟩).isSome := by
    decide +kernel
  have defined : (((Session.start 20).after []).evaluateSource "(define x true)").1.isOk = true := by
    decide +kernel
  have undefined : (((Session.start 20).after []).evaluateSource "(define x y)").1.isOk = false := by
    decide +kernel
  have unloaded : (((Session.start 20).after []).evaluatePrelude "(define x y)").1.isOk = false := by
    decide +kernel
  obtain ⟨x, bound⟩ := Option.isSome_iff_exists.mp bound
  obtain ⟨frame, found, member⟩ := Store.entry_of_binding? bound
  obtain ⟨v, defined⟩ := exists_ok_of_isOk defined
  obtain ⟨e, undefined⟩ := exists_error_of_isOk undefined
  obtain ⟨loadError, unloaded⟩ := exists_error_of_isOk unloaded
  obtain ⟨bindings, _⟩ := session_kinds 20 [.line "(define x true)"]
  obtain ⟨_, results, errors, loadErrors⟩ := session_kinds 20 []
  refine ⟨⟨frame, x, found, member, ?_⟩, ⟨v, defined, ?_⟩, ⟨e, undefined, ?_⟩,
    ⟨loadError, unloaded, ?_⟩⟩
  · exact (bindings Session.root frame found ⟨"x"⟩ x member).2.1
  · exact (results "(define x true)" v defined).2.2
  · exact (errors "(define x y)" e undefined).2.1
  · exact (loadErrors "(define x y)" loadError unloaded).2.1

end MiniLisp
