import MiniLisp.Proofs.Session.Run

namespace MiniLisp

section

variable {ε α σ : Type}

/-- The result without the value of a success. -/
def ignoreValue (result : Except ε α × σ) : Except ε Unit × σ :=
  (result.1.map fun _ => (), result.2)

theorem ignoreValue_eq_ok {result : Except ε α × σ} {t : σ}
    (succeeded : ignoreValue result = (.ok (), t)) : ∃ v, result = (.ok v, t) := by
  rcases result with ⟨e | v, u⟩
  · cases succeeded
  · cases succeeded
    exact ⟨v, rfl⟩

/-- Goes on from what a success left. A failure stands. -/
def andThen (first : Except ε Unit × σ) (next : σ → Except ε Unit × σ) : Except ε Unit × σ :=
  match first with
  | (.ok (), t) => next t
  | (.error e, t) => (.error e, t)

theorem andThen_assoc (first : Except ε Unit × σ) (second third : σ → Except ε Unit × σ) :
    andThen (andThen first second) third = andThen first fun t => andThen (second t) third := by
  rcases first with ⟨_ | _, t⟩ <;> rfl

theorem andThen_eq_ok {first : Except ε Unit × σ} {next : σ → Except ε Unit × σ} {u : σ}
    (succeeded : andThen first next = (.ok (), u)) :
    ∃ t, first = (.ok (), t) ∧ next t = (.ok (), u) := by
  rcases first with ⟨e | _, t⟩
  · cases succeeded
  · exact ⟨t, rfl, succeeded⟩

end

namespace Session

variable {s t : Session}

theorem evaluateForms_cons (s : Session) (form : Value) (rest : List Value) :
    s.evaluateForms (form :: rest) =
      andThen (ignoreValue (s.evaluate form)) (·.evaluateForms rest) := by
  rcases run : s.evaluate form with ⟨_ | _, t⟩ <;> simp only [evaluateForms, run] <;> rfl

theorem evaluateForms_append (s : Session) (before after : List Value) :
    s.evaluateForms (before ++ after) = andThen (s.evaluateForms before) (·.evaluateForms after) := by
  induction before generalizing s with
  | nil => rfl
  | cons form before ih =>
      rw [List.cons_append, evaluateForms_cons, evaluateForms_cons, andThen_assoc]
      simp only [ih]

/-- What a reader that stopped for a reason makes of the session. -/
def finish (failure : Option SyntaxError) (s : Session) : Except Error Unit × Session :=
  match failure with
  | none => (.ok (), s)
  | some reason => (.error (.unreadable reason), s)

theorem evaluatePrelude_eq (s : Session) (text : String) :
    s.evaluatePrelude text =
      andThen (s.evaluateForms (Stream.ofSource text).readAll.1)
        (finish (Stream.ofSource text).readAll.2.1) := by
  unfold evaluatePrelude
  rcases (Stream.ofSource text).readAll with ⟨forms, failure, last⟩
  rcases run : s.evaluateForms forms with ⟨_ | _, t⟩ <;> cases failure <;> simp only [run] <;> rfl

theorem evaluatePrelude_eq_ok {text : String} (succeeded : s.evaluatePrelude text = (.ok (), t)) :
    (Stream.ofSource text).readAll.2.1 = none ∧
      s.evaluateForms (Stream.ofSource text).readAll.1 = (.ok (), t) := by
  rw [evaluatePrelude_eq] at succeeded
  obtain ⟨u, forms, last⟩ := andThen_eq_ok succeeded
  cases failure : (Stream.ofSource text).readAll.2.1 with
  | none =>
      rw [failure] at last
      cases last
      exact ⟨rfl, forms⟩
  | some reason =>
      rw [failure] at last
      cases last

section

variable {outcome : Except Error Value} {expr : Value}

theorem HasRoot.evaluate (rooted : s.HasRoot) (run : s.evaluate expr = (outcome, t)) :
    t.HasRoot := by
  have writes := evaluate_writes rooted expr
  rw [run] at writes
  exact Nat.lt_of_lt_of_le rooted writes.size_le

end

/-- Forms write what their values may write. -/
theorem evaluateForms_writes (rooted : s.HasRoot) (forms : List Value) :
    Writes (scope s.store root (ExposesAny forms)) s.store (s.evaluateForms forms).2.store := by
  induction forms generalizing s with
  | nil => exact .refl
  | cons form rest ih =>
      have first := evaluate_writes rooted form
      rw [evaluateForms_cons]
      rcases run : s.evaluate form with ⟨e | v, t⟩
      · rw [run] at first
        exact first.within fun _ inside => ⟨form, List.mem_cons_self, inside⟩
      · rw [run] at first
        refine first.then (ih (rooted.evaluate run)) (fun _ inside => ⟨form, List.mem_cons_self, inside⟩) ?_
        rintro x ⟨other, member, inside⟩
        exact ⟨other, List.mem_cons_of_mem form member, inside⟩

theorem HasRoot.evaluateForms {forms : List Value} {outcome : Except Error Unit}
    (rooted : s.HasRoot) (run : s.evaluateForms forms = (outcome, t)) : t.HasRoot := by
  have writes := evaluateForms_writes rooted forms
  rw [run] at writes
  exact Nat.lt_of_lt_of_le rooted writes.size_le

/-- Around each value of a sequence that succeeds. -/
theorem evaluateForms_eq_ok {before after : List Value} {form : Value}
    (succeeded : s.evaluateForms (before ++ form :: after) = (.ok (), t)) :
    ∃ u v w, s.evaluateForms before = (.ok (), u) ∧ u.evaluate form = (.ok v, w) ∧
      w.evaluateForms after = (.ok (), t) := by
  rw [evaluateForms_append] at succeeded
  obtain ⟨u, first, rest⟩ := andThen_eq_ok succeeded
  rw [evaluateForms_cons] at rest
  obtain ⟨w, here, later⟩ := andThen_eq_ok rest
  obtain ⟨v, run⟩ := ignoreValue_eq_ok here
  exact ⟨u, v, w, first, run, later⟩

end Session

end MiniLisp
