import MiniLisp.Proofs.Evaluation.Writes
import MiniLisp.Proofs.Reading.Source
import MiniLisp.Session.Basic

/-! # Runs of a session

A session is given lines and preludes in any order and goes on after each of them, whatever its
outcome. All that it does in doing so is to evaluate values that were read, in the root, and to take
notes. `Runs` says this once for every operation: what such an evaluation and a note keep, a session
keeps.
-/

namespace MiniLisp

section

variable {α : Type} {outcome : Except Error α}

theorem exists_ok_of_isOk (succeeded : outcome.isOk = true) : ∃ a, outcome = .ok a := by
  cases outcome with
  | ok a => exact ⟨a, rfl⟩
  | error e => contradiction

theorem exists_error_of_isOk (failed : outcome.isOk = false) : ∃ e, outcome = .error e := by
  cases outcome with
  | ok a => contradiction
  | error e => exact ⟨e, rfl⟩

end

namespace Session

inductive Input where
  | line (source : String)
  | prelude (text : String)

/-- The session that is left after the inputs. -/
def after (s : Session) : List Input → Session
  | [] => s
  | .line source :: rest => (s.evaluateSource source).2.after rest
  | .prelude text :: rest => (s.evaluatePrelude text).2.after rest

inductive Runs (s : Session) : Session → Prop where
  | refl : Runs s s
  | note (before : Runs s t) (noBinding : ∀ i x v, e ≠ .bound i x v) : Runs s (t.note e)
  | evaluate (before : Runs s t) (readable : expr.Readable) : Runs s (t.evaluate expr).2

theorem Runs.trans {s t u : Session} (first : s.Runs t) (second : t.Runs u) : s.Runs u := by
  induction second with
  | refl => exact first
  | note _ noBinding ih => exact ih.note noBinding
  | evaluate _ readable ih => exact ih.evaluate readable

/-- The session in which a line is evaluated, after the note of what is ignored of it. -/
def ignoring (s : Session) (rest : List Token) : Session :=
  if rest.isEmpty then s else s.note (.ignoredTokens rest.length)

theorem frames_ignoring (s : Session) (rest : List Token) :
    (s.ignoring rest).store.frames = s.store.frames := by
  unfold ignoring
  split <;> rfl

theorem ignoring_runs (s : Session) (rest : List Token) : s.Runs (s.ignoring rest) := by
  unfold ignoring
  split
  · exact .refl
  · exact Runs.refl.note (by simp)

section

variable {s t : Session} {expr : Value}

theorem evaluate_evaluates {outcome : Except Error Value} (run : s.evaluate expr = (outcome, t)) :
    Evaluates expr root s.store outcome t.store := by
  cases run
  exact MiniLisp.evaluate_evaluates rfl

theorem evaluateSource_of_read {source : String} {rest : List Token}
    (read : Value.read (Token.tokenize source) = .ok (expr, rest)) :
    s.evaluateSource source = (s.ignoring rest).evaluate expr := by
  simp only [evaluateSource, read, ignoring]

theorem evaluateSource_of_unreadable {source : String} {reason : SyntaxError}
    (unread : Value.read (Token.tokenize source) = .error reason) :
    s.evaluateSource source = (.error (.unreadable reason), s) := by
  simp only [evaluateSource, unread]

theorem evaluateSource_runs (s : Session) (source : String) :
    s.Runs (s.evaluateSource source).2 := by
  cases read : Value.read (Token.tokenize source) with
  | error reason =>
      rw [evaluateSource_of_unreadable read]
      exact .refl
  | ok result =>
      rw [evaluateSource_of_read read]
      exact (s.ignoring_runs result.2).evaluate (readable_of_read read)

theorem evaluateForms_runs {forms : List Value} (readable : ∀ v ∈ forms, v.Readable) :
    s.Runs (s.evaluateForms forms).2 := by
  induction forms generalizing s with
  | nil => exact .refl
  | cons form rest ih =>
      have first : s.Runs (s.evaluate form).2 := Runs.refl.evaluate (readable form (by simp))
      unfold evaluateForms
      split
      · rename_i run
        rwa [run] at first
      · rename_i run
        rw [run] at first
        exact first.trans (ih fun v member => readable v (by simp [member]))

theorem readable_of_prelude (text : String) :
    ∀ v ∈ (Stream.ofSource text).readAll.1, v.Readable :=
  (Stream.ofSource text).readable_of_mem_readAll fun _ => Token.solid_of_mem_tokenize

theorem evaluatePrelude_runs (s : Session) (text : String) :
    s.Runs (s.evaluatePrelude text).2 := by
  have forms : s.Runs (s.evaluateForms (Stream.ofSource text).readAll.1).2 :=
    evaluateForms_runs (readable_of_prelude text)
  unfold evaluatePrelude
  split
  rename_i values failure last read
  rw [read] at forms
  split
  · rename_i run
    rwa [run] at forms
  · exact forms

theorem after_runs (s : Session) (inputs : List Input) : s.Runs (s.after inputs) := by
  induction inputs generalizing s with
  | nil => exact .refl
  | cons input rest ih =>
      cases input with
      | line source => exact (s.evaluateSource_runs source).trans (ih _)
      | prelude text => exact (s.evaluatePrelude_runs text).trans (ih _)

theorem evaluateForms_error {forms : List Value} {e : Error} (readable : ∀ v ∈ forms, v.Readable)
    (failed : (s.evaluateForms forms).1 = .error e) :
    ∃ form t, form.Readable ∧ s.Runs t ∧ (t.evaluate form).1 = .error e := by
  induction forms generalizing s with
  | nil => contradiction
  | cons form rest ih =>
      have here := readable form List.mem_cons_self
      unfold evaluateForms at failed
      split at failed
      · rename_i run
        cases failed
        exact ⟨form, s, here, .refl, by rw [run]⟩
      · rename_i run
        have first : s.Runs (s.evaluate form).2 := Runs.refl.evaluate here
        rw [run] at first
        obtain ⟨last, t, later, runs, failed⟩ :=
          ih (fun v member => readable v (List.mem_cons_of_mem form member)) failed
        exact ⟨last, t, later, first.trans runs, failed⟩

theorem evaluatePrelude_error {text : String} {e : Error}
    (failed : (s.evaluatePrelude text).1 = .error e) :
    (∃ reason, e = .unreadable reason) ∨
      ∃ form t, form.Readable ∧ s.Runs t ∧ (t.evaluate form).1 = .error e := by
  have readable := readable_of_prelude text
  unfold evaluatePrelude at failed
  split at failed
  rename_i values failure last read
  rw [read] at readable
  split at failed
  · cases failed
    exact .inl ⟨_, rfl⟩
  · exact .inr (evaluateForms_error readable failed)

end

/-- Every step of a session leads to a later one. -/
def Leads (s t : Session) : Prop :=
  Writes (scope s.store root fun _ => True) s.store t.store

def HasRoot (s : Session) : Prop :=
  root < s.store.frames.size

theorem hasRoot_start (depth : Nat) : (start depth).HasRoot := by
  refine Store.install_induction (P := fun t => root < t.frames.size) Nat.zero_lt_one ?_
  intro t b present
  rwa [Store.size_bind]

section

variable {s t : Session}

theorem evaluate_writes (rooted : s.HasRoot) (expr : Value) :
    Writes (scope s.store root expr.Exposes) s.store (s.evaluate expr).2.store :=
  (evaluate_evaluates rfl).writes rooted

theorem Leads.hasRoot (leads : s.Leads t) (rooted : s.HasRoot) : t.HasRoot :=
  Nat.lt_of_lt_of_le rooted leads.size_le

theorem Runs.leads (runs : s.Runs t) (rooted : s.HasRoot) : s.Leads t := by
  induction runs with
  | refl => exact Writes.refl
  | note _ noBinding ih => exact Writes.note ih noBinding
  | @evaluate t expr _ _ ih =>
      have step := t.evaluate_writes (ih.hasRoot rooted) expr
      exact Writes.then ih step (fun _ => id) fun _ _ => trivial

/-- A line writes what its value may write. -/
theorem evaluateSource_writes (rooted : s.HasRoot) {source : String} {expr : Value}
    {rest : List Token} (read : Value.read (Token.tokenize source) = .ok (expr, rest)) :
    Writes (scope s.store root expr.Exposes) s.store (s.evaluateSource source).2.store := by
  have noted : Writes (scope s.store root expr.Exposes) s.store (s.ignoring rest).store := by
    unfold ignoring
    split
    · exact .refl
    · exact Writes.refl.note (by simp)
  have rooted' : (s.ignoring rest).HasRoot := Nat.lt_of_lt_of_le rooted noted.size_le
  rw [evaluateSource_of_read read]
  exact noted.then (evaluate_writes rooted' expr) (fun _ => id) (fun _ => id)

end

theorem hasRoot_after (depth : Nat) (inputs : List Input) : ((start depth).after inputs).HasRoot :=
  (((start depth).after_runs inputs).leads (hasRoot_start depth)).hasRoot (hasRoot_start depth)

end Session

end MiniLisp
