import MiniLisp.Program
import MiniLisp.Proofs.Evaluation.Notes
import MiniLisp.Proofs.Session.Prelude

namespace MiniLisp

namespace Session

variable {s s' : Session}

/-- The session without the notes on the loading of preludes. -/
def quiet (s : Session) : Session :=
  { s with store := s.store.quiet }

theorem quiet_note_loading (s : Session) (title : String) :
    (s.note (.loadingPrelude title)).quiet = s.quiet :=
  congrArg (Session.mk · s.depth) (s.store.quiet_note_loading title)

/-- The results are the same but for such notes. -/
structure Agree {α : Type} (result result' : Except Error α × Session) : Prop where
  outcome : result.1 = result'.1
  session : result.2.quiet = result'.2.quiet

theorem Agree.ignoreValue {α : Type} {result result' : Except Error α × Session}
    (agree : Agree result result') : Agree (ignoreValue result) (ignoreValue result') where
  outcome := congrArg (Except.map _) agree.outcome
  session := agree.session

theorem Agree.andThen {result result' : Except Error Unit × Session}
    {next next' : Session → Except Error Unit × Session} (agree : Agree result result')
    (later : ∀ {t t' : Session}, t.quiet = t'.quiet → Agree (next t) (next' t')) :
    Agree (andThen result next) (andThen result' next') := by
  obtain ⟨outcome, t⟩ := result
  obtain ⟨outcome', t'⟩ := result'
  obtain ⟨same, left⟩ := agree
  cases same
  cases outcome with
  | error e => exact ⟨rfl, left⟩
  | ok => exact later left

theorem evaluate_agree (same : s.quiet = s'.quiet) (expr : Value) :
    Agree (s.evaluate expr) (s'.evaluate expr) := by
  obtain ⟨store, depth⟩ := s
  obtain ⟨store', depth'⟩ := s'
  obtain ⟨stores, rfl⟩ := Session.mk.inj same
  have ⟨outcome, left⟩ := evaluate_quiet stores depth expr root
  exact ⟨outcome, congrArg (Session.mk · depth) left⟩

theorem evaluateForms_agree (same : s.quiet = s'.quiet) (forms : List Value) :
    Agree (s.evaluateForms forms) (s'.evaluateForms forms) := by
  induction forms generalizing s s' with
  | nil => exact ⟨rfl, same⟩
  | cons form rest ih =>
      rw [evaluateForms_cons, evaluateForms_cons]
      exact (evaluate_agree same form).ignoreValue.andThen ih

theorem evaluatePrelude_agree (same : s.quiet = s'.quiet) (text : String) :
    Agree (s.evaluatePrelude text) (s'.evaluatePrelude text) := by
  rw [evaluatePrelude_eq, evaluatePrelude_eq]
  refine (evaluateForms_agree same _).andThen fun left => ?_
  cases (Stream.ofSource text).readAll.2.1 with
  | none => exact ⟨rfl, left⟩
  | some reason => exact ⟨rfl, left⟩

theorem evaluatePrelude_empty (s : Session) : s.evaluatePrelude "" = (.ok (), s) :=
  evaluatePrelude_of_divides (.finished (List.forall_mem_nil _)) s

/-- Balanced texts, one below the other, are evaluated one after the other. -/
theorem evaluatePrelude_intercalate {text : String} (balanced : Text.Balanced text.toList)
    (texts : List String) (s : Session) :
    s.evaluatePrelude ("\n".intercalate (text :: texts)) =
      MiniLisp.andThen (s.evaluatePrelude text) (·.evaluatePrelude ("\n".intercalate texts)) := by
  cases texts with
  | nil =>
      rw [String.intercalate_singleton, String.intercalate_nil]
      rcases run : s.evaluatePrelude text with ⟨e | _, t⟩
      · rfl
      · exact t.evaluatePrelude_empty.symm
  | cons next texts =>
      have lineFeed : ∀ c ∈ "\n".toList, Text.isBlank c = true :=
        List.all_eq_true.mp (by decide +kernel)
      rw [String.intercalate_cons_cons]
      exact s.evaluatePrelude_append balanced lineFeed (by decide +kernel) _

end Session

namespace Loggers

variable {t : Loggers}

/-- No handler writes to a file. -/
def ConsoleOnly (t : Loggers) : Prop :=
  ∀ h ∈ t.handlers, h.sink = .console

theorem deliver_console {handlers : List Handler} (console : ∀ h ∈ handlers, h.sink = .console)
    (r : LogRecord) (now : ClockTime) (colored : Bool) (files : FileTree) :
    (deliver r now colored files handlers).2 = files := by
  induction handlers with
  | nil => rfl
  | cons h rest ih =>
      obtain ⟨here, others⟩ := List.forall_mem_cons.mp console
      rw [deliver, here]
      split
      · exact ih others
      · exact ih others

theorem ConsoleOnly.emit (console : t.ConsoleOnly) (now : ClockTime) (r : LogRecord) :
    (t.emit now r).2 = t := by
  unfold Loggers.emit
  by_cases below : isBelowBase r.logger
  · have kept := deliver_console console r now t.colored t.files
    simp only [below, if_true, kept]
    split
    · rfl
    · split <;> rfl
  · simp only [below]
    split <;> rfl

theorem ConsoleOnly.emitAll (console : t.ConsoleOnly) (now : ClockTime) (records : List LogRecord) :
    (t.emitAll now records).2 = t := by
  induction records with
  | nil => rfl
  | cons r rest ih =>
      change ((t.emit now r).2.emitAll now rest).2 = t
      rw [console.emit]
      exact ih

end Loggers

namespace Program

/-- The program when it has noted that a prelude is loaded and is about to read it. -/
def announce (p : Program) (next : Prelude) : Program :=
  { p with session := p.session.note (.loadingPrelude next.title) }.flush

/-- The texts that loading reads, one for each prelude that it comes to. Behind one that fails there
may be any texts. -/
inductive Reads : Program → List Prelude → List String → Prop where
  | nil : Reads p [] []
  | cons (found : next.source (p.announce next).loggers.files = .ok text)
      (later : ∀ t, (p.announce next).session.evaluatePrelude text = (.ok (), t) →
        Reads { p.announce next with session := t } rest texts) :
      Reads p (next :: rest) (text :: texts)

theorem quiet_announce (p : Program) (next : Prelude) :
    (p.announce next).session.quiet = p.session.quiet :=
  p.session.quiet_note_loading next.title

theorem loggers_announce {p : Program} (console : p.loggers.ConsoleOnly) (next : Prelude) :
    (p.announce next).loggers = p.loggers :=
  console.emitAll p.time _

/-- As long as no log is written to a file, the texts are those of the files from the start. -/
theorem reads_of_sources {preludes : List Prelude} {texts : List String} {loggers : Loggers}
    (sources : List.Forall₂ (fun next text => next.source loggers.files = .ok text) preludes texts)
    (console : loggers.ConsoleOnly) {p : Program} (same : p.loggers = loggers) :
    p.Reads preludes texts := by
  induction sources generalizing p with
  | nil => exact .nil
  | @cons next text _ _ found _ ih =>
      subst same
      have kept := loggers_announce console next
      rw [← kept] at found
      exact .cons found fun _ _ => ih kept

section

variable {p : Program} {next : Prelude} {rest : List Prelude} {text : String} {t : Session}

theorem load_of_error {e : Error}
    (found : next.source (p.announce next).loggers.files = .ok text)
    (ran : (p.announce next).session.evaluatePrelude text = (.error e, t)) :
    p.load (next :: rest) = (.error (.language e), { p.announce next with session := t }) := by
  unfold announce at found ran ⊢
  simp only [load, found, ran]

theorem load_of_ok (found : next.source (p.announce next).loggers.files = .ok text)
    (ran : (p.announce next).session.evaluatePrelude text = (.ok (), t)) :
    p.load (next :: rest) = { p.announce next with session := t }.load rest := by
  unfold announce at found ran ⊢
  simp only [load, found, ran]

end

/-- Loading does to the session what one prelude of all the texts does. -/
theorem Reads.load_eq {p : Program} {preludes : List Prelude} {texts : List String}
    (reads : p.Reads preludes texts) (balanced : ∀ text ∈ texts, Text.Balanced text.toList)
    {s : Session} (same : p.session.quiet = s.quiet) :
    let whole := s.evaluatePrelude ("\n".intercalate texts)
    (p.load preludes).1 = whole.1.mapError LoadError.language ∧
      (p.load preludes).2.session.quiet = whole.2.quiet := by
  intro whole
  induction reads generalizing s with
  | nil =>
      have empty : whole = (.ok (), s) := by
        rw [← s.evaluatePrelude_empty, ← String.intercalate_nil]
      rw [empty]
      exact ⟨rfl, same⟩
  | @cons rest texts p next text found later ih =>
      obtain ⟨here, others⟩ := List.forall_mem_cons.mp balanced
      have agree := Session.evaluatePrelude_agree ((p.quiet_announce next).trans same) text
      have split : whole = _ := Session.evaluatePrelude_intercalate here texts s
      rw [split]
      rcases ran : (p.announce next).session.evaluatePrelude text with ⟨outcome, t⟩
      rcases ran' : s.evaluatePrelude text with ⟨outcome', t'⟩
      rw [ran, ran'] at agree
      obtain ⟨alike, left⟩ := agree
      cases alike
      cases outcome with
      | error e =>
          rw [load_of_error found ran]
          exact ⟨rfl, left⟩
      | ok =>
          rw [load_of_ok found ran]
          exact ih t ran others left

end Program

/-- To evaluate a text as a prelude is to evaluate the texts of its forms as lines, in order, and
then to fail if the reader could not go on; so that a text that cannot be read has had all the
effects of its forms. After a text whose parentheses balance a prelude goes on as what follows, and
preludes whose parentheses balance do together what one prelude does, but for the notes of their
loading. -/
theorem prelude_composes :
    (∀ text, ∃ parts ending, Divides text parts ending) ∧
    (∀ (s : Session) text parts ending, Divides text parts ending →
      s.evaluatePrelude text = andThen (s.evaluateSources parts) (Session.finish ending) ∧
      ∀ reason t, s.evaluatePrelude text = (.error (.unreadable reason), t) →
        ending = some reason ∧ s.evaluateSources parts = (.ok (), t)) ∧
    (∀ (s : Session) a gap b, Text.Balanced a.toList → gap ≠ "" →
      (∀ c ∈ gap.toList, Text.isBlank c = true) →
      s.evaluatePrelude (a ++ gap ++ b) = andThen (s.evaluatePrelude a) (·.evaluatePrelude b)) ∧
    (∀ (p : Program) v preludes texts, p.loggers.files.preludes v = .ok preludes →
      p.Reads preludes texts → (∀ text ∈ texts, Text.Balanced text.toList) →
      let run := p.loadPreludes v
      let whole := p.session.evaluatePrelude ("\n".intercalate texts)
      run.1 = whole.1.mapError .language ∧ run.2.session.quiet = whole.2.quiet) := by
  refine ⟨exists_divides, ?_, ?_, ?_⟩
  · intro s text parts ending divided
    refine ⟨Session.evaluatePrelude_of_divides divided s, fun reason t failed => ?_⟩
    exact Session.evaluateSources_of_unreadable divided failed
  · intro s a gap b balanced nonempty blank
    exact s.evaluatePrelude_append balanced blank nonempty b
  · intro p v preludes texts found reads balanced
    have loaded := reads.load_eq balanced rfl
    rw [Program.loadPreludes, found]
    exact loaded

/-- A text that ends too early, a stray parenthesis after a definition, and two files. -/
theorem prelude_composes_two_files :
    let s := Session.start 30
    let first := "(define x 1)"
    let second := "(define y x)"
    let files : FileTree := { files := ⟨[(["a"], first.toUTF8), (["b"], second.toUTF8)]⟩ }
    let p : Program := { session := s, loggers := { files } }
    let v : Variables := { preludePath := some "a:b", logLevel := none, recursionLimit := none }
    (∃ t, s.evaluatePrelude "1 (" = (.error (.unreadable .unbalanced), t) ∧
      s.evaluateSources ["1"] = (.ok (), t)) ∧
    s.evaluatePrelude (first ++ " " ++ ")") = andThen (s.evaluatePrelude first)
      (·.evaluatePrelude ")") ∧
    (p.loadPreludes v).1 = (s.evaluatePrelude (first ++ "\n" ++ second)).1.mapError .language := by
  intro s first second files p v
  obtain ⟨_, lines, one_by_one, joined⟩ := prelude_composes
  have cut : Divides "1 (" ["1"] (some .unbalanced) := by
    have nothing : ∀ c ∈ "".toList, Text.isBlank c = true := List.forall_mem_nil _
    have trimmed : Text.Trimmed "1".toList := by
      simp [Text.Trimmed, Text.isBlank, Text.isWhiteSpace]
    have tokens : Token.tokenize " (" = [.opening] := by decide +kernel
    have rest : Divides " (" [] (some .unbalanced) := .stuck (by simp [tokens]) (tokens ▸ rfl)
    exact .form nothing trimmed (by decide +kernel) .atom rest
  have balanced : Text.Balanced first.toList ∧ Text.Balanced second.toList := by decide +kernel
  have found : files.preludes v = .ok [.file (.ofString "a"), .file (.ofString "b")] := by
    decide +kernel
  have sources : (Prelude.file (.ofString "a")).source files = .ok first ∧
      (Prelude.file (.ofString "b")).source files = .ok second := by
    decide +kernel
  have console : p.loggers.ConsoleOnly := by
    intro _ absent
    contradiction
  have reads : p.Reads [.file (.ofString "a"), .file (.ofString "b")] [first, second] :=
    Program.reads_of_sources (.cons sources.1 (.cons sources.2 .nil)) console rfl
  have both : ∀ text ∈ [first, second], Text.Balanced text.toList := by
    simpa using balanced
  have blank : ∀ c ∈ " ".toList, Text.isBlank c = true := List.all_eq_true.mp (by decide +kernel)
  refine ⟨?_, one_by_one s first " " ")" balanced.1 (by decide +kernel) blank, ?_⟩
  · obtain ⟨same, unreadable⟩ := lines s "1 (" _ _ cut
    have finishes : (s.evaluateSources ["1"]).1.isOk := by decide +kernel
    rcases ran : s.evaluateSources ["1"] with ⟨outcome, t⟩
    rw [ran] at finishes
    obtain ⟨_, rfl⟩ := exists_ok_of_isOk finishes
    have failed : s.evaluatePrelude "1 (" = (.error (.unreadable .unbalanced), t) := by
      rw [same, ran]
      rfl
    exact ⟨t, failed, ran ▸ (unreadable _ t failed).2⟩
  · exact (joined p v _ _ found reads both).1

end MiniLisp
