import MiniLisp.Proofs.Error
import MiniLisp.Proofs.Evaluation.Depth
import MiniLisp.Proofs.Session.Run
import MiniLisp.Session.Dialogue

namespace MiniLisp

/-- The kind of the error that a computation ended in, if it did. -/
def failure? {α : Type} : Except Error α → Option Error.Kind
  | .ok _ => none
  | .error e => some e.kind

theorem eq_tooDeep_of_failure? {α : Type} {outcome : Except Error α}
    (stopped : failure? outcome = some .depth) : outcome = .error .tooDeep := by
  cases outcome with
  | ok a => contradiction
  | error e =>
      have kind : e.kind = .depth := Option.some.inj stopped
      cases e with
      | tooDeep => rfl
      | _ => cases kind

namespace Session

variable {s t : Session} {line : String} {color : Bool}

/-- Such an answer is given to a line only when its evaluation stopped for want of depth. -/
theorem evaluateSource_of_answer
    (answered : s.answer line color = ("✗ maximum recursion depth exceeded", t)) :
    ∃ u, s.evaluateSource line = (.error .tooDeep, u) ∧ t = u.note (.depthExceeded line) := by
  have text : "✗ maximum recursion depth exceeded" = "✗ " ++ Error.tooDeep.message := by
    decide +kernel
  unfold answer at answered
  split at answered
  · exact absurd (Prod.mk.inj answered).1 (append_ne (by decide +kernel) _)
  · rename_i u stopped
    exact ⟨u, stopped, (Prod.mk.inj answered).2.symm⟩
  · rename_i e u other failed
    have same := (Prod.mk.inj answered).1
    rw [text, String.append_right_inj] at same
    exact absurd (Error.eq_tooDeep_of_message same) other

theorem depth_ignoring (s : Session) (rest : List Token) : (s.ignoring rest).depth = s.depth := by
  unfold ignoring
  split <;> rfl

/-- The line was read, and it is the evaluation of its value that stopped. -/
theorem evaluate_of_evaluateSource {u : Session}
    (stopped : s.evaluateSource line = (.error .tooDeep, u)) :
    ∃ expr rest, Value.read (Token.tokenize line) = .ok (expr, rest) ∧
      (s.ignoring rest).evaluate expr = (.error .tooDeep, u) := by
  cases read : Value.read (Token.tokenize line) with
  | error reason =>
      rw [evaluateSource_of_unreadable read] at stopped
      cases (Prod.mk.inj stopped).1
  | ok result =>
      rw [evaluateSource_of_read read] at stopped
      exact ⟨result.1, result.2, rfl, stopped⟩

end Session

/-- The evaluation of a value with this depth passes through the store `u`: some of the first events
of it lead there. -/
def PassesThrough (depth : Nat) (expr : Value) (frame : FrameId) (s u : Store) : Prop :=
  ∃ events, events <+: s.eventsSince ((evaluate depth expr frame).run.run s).2 ∧
    u = s.replay events

/-- An evaluation that does not run out of depth is the same with any greater depth. One that does
stops in a store that any greater depth passes through, with all events until then kept; and so does
a line of a session. -/
theorem depth_only_cuts_off :
    (∀ (short long : Nat) (expr : Value) (frame : FrameId) (s : Store), short ≤ long →
      let first := (evaluate short expr frame).run.run s
      let second := (evaluate long expr frame).run.run s
      (first.1 ≠ .error .tooDeep → second = first) ∧
      (first.1 = .error .tooDeep →
        s.eventsSince first.2 <+: s.eventsSince second.2 ∧
        first.2 = s.replay (s.eventsSince first.2) ∧
        second.2 = s.replay (s.eventsSince second.2))) ∧
    ∀ (s t : Session) (line : String) (color : Bool),
      s.answer line color = ("✗ maximum recursion depth exceeded", t) →
      ∃ expr rest u, Value.read (Token.tokenize line) = .ok (expr, rest) ∧
        t = ⟨u.note (.depthExceeded line), s.depth⟩ ∧
        ∀ depth, s.depth ≤ depth →
          PassesThrough depth expr Session.root (s.ignoring rest).store u := by
  constructor
  · intro short long expr frame s deeper first second
    have cut := evaluate_cutOff deeper expr frame
    have before := (evaluate_cutOff (Nat.le_refl short) expr frame).continues s
    constructor
    · intro finished
      exact evaluate_of_ne_tooDeep finished deeper
    · intro _
      exact ⟨before.eventsSince_prefix (cut.further s), before.eq_replay,
        (cut.continues s).eq_replay⟩
  · intro s t line color answered
    obtain ⟨stopped, run, rfl⟩ := Session.evaluateSource_of_answer answered
    obtain ⟨expr, rest, read, run⟩ := Session.evaluate_of_evaluateSource run
    have stored : ((evaluate s.depth expr Session.root).run.run (s.ignoring rest).store).2 =
        stopped.store := by
      rw [← s.depth_ignoring rest]
      exact congrArg (·.2.store) run
    have kept : stopped.depth = s.depth := by
      rw [← s.depth_ignoring rest]
      exact congrArg (·.2.depth) run.symm
    refine ⟨expr, rest, stopped.store, read, congrArg _ kept, fun depth deeper => ?_⟩
    have before := (evaluate_cutOff (Nat.le_refl s.depth) expr Session.root).continues
      (s.ignoring rest).store
    have further := (evaluate_cutOff deeper expr Session.root).further (s.ignoring rest).store
    rw [stored] at before further
    exact ⟨_, before.eventsSince_prefix further, before.eq_replay⟩

/-- A call of a function on itself, over and over: `((lambda (f) (f f)) (lambda (f) (f f)))`. -/
def endless : Value :=
  let again := .list [.symbol ⟨"lambda"⟩, .list [.symbol ⟨"f"⟩], .list [.symbol ⟨"f"⟩, .symbol ⟨"f"⟩]]
  .list [again, again]

/-- A value that is done at once, a call that never ends, and a line with that call. -/
theorem depth_only_cuts_off_endless :
    let s := (Session.start 20).store
    let line := "((lambda (f) (f f)) (lambda (f) (f f)))"
    (3 ≤ 30 ∧ ((evaluate 3 (.boolean true) Session.root).run.run s).1 ≠ .error .tooDeep ∧
      (evaluate 30 (.boolean true) Session.root).run.run s =
        (evaluate 3 (.boolean true) Session.root).run.run s) ∧
    (9 ≤ 30 ∧ ((evaluate 9 endless Session.root).run.run s).1 = .error .tooDeep ∧
      s.eventsSince ((evaluate 9 endless Session.root).run.run s).2 <+:
        s.eventsSince ((evaluate 30 endless Session.root).run.run s).2) ∧
    ∃ t, (Session.start 20).answer line false = ("✗ maximum recursion depth exceeded", t) ∧
      ∃ expr rest u, t = ⟨u.note (.depthExceeded line), 20⟩ ∧
        PassesThrough 1000 expr Session.root ((Session.start 20).ignoring rest).store u := by
  intro s line
  have stopped : ((evaluate 9 endless Session.root).run.run s).1 = .error .tooDeep :=
    eq_tooDeep_of_failure? (by decide +kernel)
  have text : ((Session.start 20).answer line false).1 = "✗ maximum recursion depth exceeded" := by
    decide +kernel
  have answered := Prod.ext (y := ("✗ maximum recursion depth exceeded", _)) text rfl
  obtain ⟨expr, rest, u, _, last, passes⟩ := depth_only_cuts_off.2 _ _ line false answered
  refine ⟨⟨by decide, nofun, ?_⟩, ⟨by decide, stopped, ?_⟩, _, answered, expr, rest, u, last, ?_⟩
  · exact (depth_only_cuts_off.1 3 30 (.boolean true) Session.root s (by decide)).1 nofun
  · exact ((depth_only_cuts_off.1 9 30 endless Session.root s (by decide)).2 stopped).1
  · exact passes 1000 (by decide)

end MiniLisp
