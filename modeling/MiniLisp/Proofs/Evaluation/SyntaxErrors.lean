import MiniLisp.Proofs.Evaluation.Invariant
import MiniLisp.Proofs.Session.Run

namespace MiniLisp

/-- The error, if it is one, is not about reading. -/
def NoSyntaxError {α : Type} (outcome : Except Error α) : Prop :=
  ∀ e, outcome = .error e → e.kind ≠ .unreadable

namespace NoSyntaxError

variable {α β : Type} {outcome : Except Error α}

theorem ok (a : α) : NoSyntaxError (.ok a) := by
  intro e failed
  contradiction

theorem error {e : Error} (other : e.kind ≠ .unreadable) :
    NoSyntaxError (.error e : Except Error α) := by
  intro e' failed
  cases failed
  exact other

theorem bind {f : α → Except Error β} (first : NoSyntaxError outcome) (next : ∀ a, NoSyntaxError (f a)) :
    NoSyntaxError (outcome.bind f) := by
  cases outcome with
  | error e => exact .error (first e rfl)
  | ok a => exact next a

theorem map (f : α → β) (first : NoSyntaxError outcome) : NoSyntaxError (outcome.map f) := by
  cases outcome with
  | error e => exact .error (first e rfl)
  | ok a => exact .ok (f a)

end NoSyntaxError

namespace Builtin

theorem divideBy_noSyntaxError (x y : Float) : NoSyntaxError (divideBy x y) := by
  unfold divideBy
  split
  · exact .error nofun
  · exact .ok _

theorem quotient_noSyntaxError (x : Float) (ys : List Float) : NoSyntaxError (quotient x ys) := by
  suffices folded : ∀ x, NoSyntaxError (ys.foldlM divideBy x) by
    cases ys with
    | nil => exact divideBy_noSyntaxError 1.0 x
    | cons => exact folded x
  induction ys with
  | nil => exact .ok
  | cons y rest ih =>
      intro x
      rw [List.foldlM_cons]
      exact (divideBy_noSyntaxError x y).bind ih

theorem compute_noSyntaxError (b : Builtin) (xs : List Float) : NoSyntaxError (b.compute xs) := by
  unfold compute
  split
  · exact .ok _
  · exact .ok _
  · exact .ok _
  · exact (quotient_noSyntaxError _ _).map _
  · split
    · exact .ok _
    · exact .error nofun

theorem numbers_noSyntaxError (b : Builtin) (args : List Value) : NoSyntaxError (b.numbers args) := by
  fun_induction numbers b args with
  | case1 => exact .ok _
  | case2 _ _ ih => exact ih.map _
  | case3 => exact .error nofun

theorem call_noSyntaxError (b : Builtin) (args : List Value) : NoSyntaxError (b.call args) :=
  (b.numbers_noSyntaxError args).bind b.compute_noSyntaxError

end Builtin

theorem Value.checkArity_noSyntaxError (params : Value) (provided : Int) :
    NoSyntaxError (params.checkArity provided) := by
  unfold checkArity
  split
  · exact .error nofun
  · split
    · exact .ok _
    · exact .error nofun

/-- What evaluation makes of anything, as far as reading is concerned. -/
def readDiscipline : Discipline where
  code _ := True
  name _ := True
  result _ := True
  error e := e.kind ≠ .unreadable
  item _ _ := trivial
  spelled _ := trivial
  atom _ := trivial
  symbol _ := trivial
  closure _ _ := trivial
  opened _ := ⟨trivial, trivial⟩
  tooDeep := by decide
  unbound _ := nofun
  refused reason _ := by cases reason <;> nofun
  inapplicable reason _ := by
    cases reason with
    | tooDeep => decide
    | notFunction => nofun
    | arity wrong => exact Value.checkArity_noSyntaxError _ _ _ wrong
  notBoolean _ := nofun
  called _ failed := Builtin.call_noSyntaxError _ _ _ failed

theorem Evaluates.noSyntaxError {expr : Value} {frame : FrameId} {s t : Store}
    {outcome : Except Error Value} (evaluated : Evaluates expr frame s outcome t) :
    NoSyntaxError outcome := by
  have holds : readDiscipline.Holds s := fun _ _ _ _ _ _ => ⟨trivial, trivial⟩
  have ⟨_, expected⟩ := evaluated.keeps (D := readDiscipline) trivial holds
  cases outcome with
  | ok v => exact .ok v
  | error e => exact .error expected

namespace Session

variable {s t : Session}

theorem evaluate_noSyntaxError (s : Session) (expr : Value) : NoSyntaxError (s.evaluate expr).1 :=
  Evaluates.noSyntaxError (evaluate_evaluates rfl)

/-- A line is answered with an error of the reader only when it cannot be read. -/
theorem read_of_evaluateSource {source : String} {reason : SyntaxError}
    (failed : (s.evaluateSource source).1 = .error (.unreadable reason)) :
    Value.read (Token.tokenize source) = .error reason := by
  cases read : Value.read (Token.tokenize source) with
  | error other =>
      rw [evaluateSource_of_unreadable read] at failed
      cases failed
      rfl
  | ok result =>
      rw [evaluateSource_of_read read] at failed
      exact absurd rfl (evaluate_noSyntaxError _ _ _ failed)

end Session

end MiniLisp
