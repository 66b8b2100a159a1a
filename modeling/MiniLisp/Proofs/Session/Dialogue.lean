import MiniLisp.Proofs.Error
import MiniLisp.Proofs.Evaluation.SyntaxErrors
import MiniLisp.Proofs.Session.Kinds
import MiniLisp.Proofs.Token.Cut
import MiniLisp.Session.Dialogue

namespace MiniLisp

open Text

def Text.isWritten (line : List Char) : Bool :=
  line.any fun c => !isBlank c

theorem Text.isWritten_eq (line : List Char) : isWritten line = !line.all isBlank :=
  List.not_all_eq_any_not.symm

namespace Session

variable {s t : Session}

theorem answer_text (s : Session) (line : String) :
    (s.answer line false).1 =
      match (s.evaluateSource line).1 with
      | .ok v => "✓ " ++ v.render
      | .error e => "✗ " ++ e.message := by
  rcases run : s.evaluateSource line with ⟨e | v, t⟩
  · cases e <;> simp only [answer, run]
  · simp only [answer, run]
    rfl

/-- A session does not notice whether its answers are in colour. -/
theorem answer_session (s : Session) (line : String) (color : Bool) :
    (s.answer line color).2 = (s.answer line false).2 := by
  rcases run : s.evaluateSource line with ⟨e | v, t⟩
  · cases e <;> simp only [answer, run]
  · simp only [answer, run]

theorem answer_runs (s : Session) (line : String) : s.Runs (s.answer line false).2 := by
  have runs := s.evaluateSource_runs line
  unfold answer
  split
  · rename_i run
    rwa [run] at runs
  · rename_i run
    rw [run] at runs
    exact runs.note nofun
  · rename_i run
    rwa [run] at runs

theorem answer_begins (s : Session) (line : String) :
    ∃ text, (s.answer line false).1 = "✓ " ++ text ∨ (s.answer line false).1 = "✗ " ++ text := by
  rw [answer_text]
  cases (s.evaluateSource line).1 with
  | ok v => exact ⟨_, .inl rfl⟩
  | error e => exact ⟨_, .inr rfl⟩

theorem oneLine_answer (clean : s.store.Clean) (line : String) :
    OneLine (s.answer line false).1 := by
  have expected := s.evaluateSource_kinds clean line
  rw [answer_text]
  cases outcome : (s.evaluateSource line).1 with
  | ok v =>
      rw [outcome] at expected
      exact oneLine_append.mpr ⟨by decide +kernel, Value.IsResult.oneLine expected⟩
  | error e =>
      rw [outcome] at expected
      exact oneLine_append.mpr ⟨by decide +kernel, Error.FromSource.oneLine expected⟩

theorem answer_ne_missing {line : List Char} (written : isWritten line = true) :
    (s.answer (String.ofList line) false).1 ≠ "✗ missing token" := by
  intro answered
  rw [answer_text] at answered
  split at answered
  · exact absurd answered (append_ne (by decide +kernel) _)
  · rename_i e failed
    have text : "✗ missing token" = "✗ " ++ "missing token" := by decide +kernel
    rw [text, String.append_right_inj] at answered
    cases Error.eq_missingToken_of_message answered
    have empty := read_eq_missing_iff.mp (read_of_evaluateSource failed)
    have blank := Token.split_eq_nil_iff.mp empty
    rw [String.toList_ofList] at blank
    rw [isWritten_eq, List.all_eq_true.mpr blank] at written
    contradiction

/-- The session after it has answered some lines. -/
def answered (s : Session) (lines : List (List Char)) : Session :=
  lines.foldl (fun s line => (s.answer (String.ofList line) false).2) s

def answers (s : Session) : List (List Char) → List String
  | [] => []
  | line :: rest => (s.answer (String.ofList line) false).1 :: (s.answered [line]).answers rest

theorem answered_runs (s : Session) (lines : List (List Char)) : s.Runs (s.answered lines) := by
  induction lines generalizing s with
  | nil => exact .refl
  | cons line rest ih => exact (s.answer_runs _).trans (ih _)

theorem length_answers (s : Session) (lines : List (List Char)) :
    (s.answers lines).length = lines.length := by
  induction lines generalizing s with
  | nil => rfl
  | cons line rest ih => exact congrArg (· + 1) (ih _)

theorem exists_of_mem_answers {lines : List (List Char)} {text : String}
    (member : text ∈ s.answers lines) :
    ∃ t, ∃ line ∈ lines, s.Runs t ∧ (t.answer (String.ofList line) false).1 = text := by
  induction lines generalizing s with
  | nil => contradiction
  | cons first rest ih =>
      rcases List.mem_cons.mp member with rfl | later
      · exact ⟨s, first, List.mem_cons_self, .refl, rfl⟩
      · obtain ⟨t, line, inside, runs, same⟩ := ih later
        have before := s.answered_runs [first]
        exact ⟨t, line, List.mem_cons_of_mem first inside, before.trans runs, same⟩

theorem answers_getElem? {lines : List (List Char)} {k : Nat} {line : List Char}
    (here : lines[k]? = some line) :
    (s.answers lines)[k]? =
      some ((s.answered (lines.take k)).answer (String.ofList line) false).1 := by
  induction lines generalizing s k with
  | nil => contradiction
  | cons first rest ih =>
      cases k with
      | zero =>
          cases here
          rfl
      | succ k => exact ih here

theorem answered_take_succ {lines : List (List Char)} {k : Nat} {line : List Char}
    (here : lines[k]? = some line) :
    s.answered (lines.take (k + 1)) =
      ((s.answered (lines.take k)).answer (String.ofList line) false).2 := by
  have within : k < lines.length := (List.getElem?_eq_some_iff.mp here).1
  have last : lines[k] = line := (List.getElem?_eq_some_iff.mp here).2
  rw [List.take_succ_eq_append_getElem within, answered, List.foldl_append, last]
  rfl

theorem reply_written {line : List Char} (written : isWritten line = true) (color : Bool) :
    s.reply line color =
      ((s.answer (String.ofList line) color).1 ++ "\n", s.answered [line]) := by
  rw [isWritten_eq, Bool.not_eq_true'] at written
  unfold reply
  rw [if_neg (Bool.not_eq_true _ ▸ written)]
  exact Prod.ext rfl (answer_session s _ color)

theorem reply_blank {line : List Char} (blank : isWritten line = false) (color : Bool) :
    s.reply line color = ("", s) := by
  rw [isWritten_eq, Bool.not_eq_false'] at blank
  exact if_pos blank

theorem converse_session (c : Console) (s : Session) (lines : List (List Char)) :
    (c.converse s lines).2 = s.answered (lines.filter isWritten) := by
  induction lines generalizing s with
  | nil => rfl
  | cons line rest ih =>
      cases written : isWritten line with
      | true =>
          rw [List.filter_cons_of_pos written]
          simp only [Console.converse, reply_written written]
          exact ih _
      | false =>
          rw [List.filter_cons_of_neg (by simp [written])]
          simp only [Console.converse, reply_blank written]
          exact ih s

theorem converse_text {c : Console} (quiet : c.interactive = false) (s : Session)
    (lines : List (List Char)) :
    (c.converse s lines).1 =
      String.join ((s.answers (lines.filter isWritten)).map (· ++ "\n")) := by
  have noCue : c.cue = "" := by rw [Console.cue, quiet]; rfl
  induction lines generalizing s with
  | nil => exact noCue
  | cons line rest ih =>
      cases written : isWritten line with
      | true =>
          rw [List.filter_cons_of_pos written, answers, List.map_cons, String.join_cons, ← ih]
          simp only [Console.converse, quiet, noCue, reply_written written]
          rw [String.empty_append]
      | false =>
          rw [List.filter_cons_of_neg (by simp [written]), ← ih]
          simp only [Console.converse, noCue, reply_blank written]
          rw [String.empty_append, String.empty_append]

end Session

/-- Without a terminal a dialogue writes one line for every line of its input that is not blank, and
nothing else. Each is the answer of the session that the lines before left, whatever became of them:
a check mark and the text of a value that is no list, or a cross and the message of an error that
was caught, but never that of a missing token. At a terminal the session ends up the same. -/
theorem dialogue_answers_every_line (depth : Nat) (inputs : List Session.Input)
    (earlier : List (List Char)) (input prompt : String) :
    let s := ((Session.start depth).after inputs).answered earlier
    let written := (Text.lines input.toList).filter Text.isWritten
    let run := Console.dialogue { interactive := false, prompt } s input
    ∃ answers : List String, answers.length = written.length ∧
      Text.lines run.1.toList = answers.map (·.toList ++ ['\n']) ∧
      run.2 = s.answered written ∧
      (∀ k line, written[k]? = some line →
        let t := s.answered (written.take k)
        answers[k]? = some (t.answer (String.ofList line) false).1 ∧
        s.answered (written.take (k + 1)) = (t.answer (String.ofList line) false).2 ∧
        (∀ v, (t.evaluateSource (String.ofList line)).1 = .ok v →
          answers[k]? = some ("✓ " ++ v.render) ∧ v.IsResult ∧ ∀ items, v ≠ .list items) ∧
        ∀ e, (t.evaluateSource (String.ofList line)).1 = .error e →
          answers[k]? = some ("✗ " ++ e.message) ∧ e.FromSource) ∧
      (∀ answer ∈ answers, (∃ text, answer = "✓ " ++ text ∨ answer = "✗ " ++ text) ∧
        '\n' ∉ answer.toList ∧ answer ≠ "✗ missing token") ∧
      ∀ cue, (Console.dialogue { interactive := true, prompt := cue } s input).2 = run.2 := by
  intro s written run
  have runs : (Session.start depth).Runs s :=
    ((Session.start depth).after_runs inputs).trans (Session.answered_runs _ earlier)
  have clean {t : Session} (later : s.Runs t) : t.store.Clean :=
    (runs.trans later).clean (Session.clean_start depth)
  have session := Session.converse_session { interactive := false, prompt } s (lines input.toList)
  have text : run.1 = String.join ((s.answers written).map (· ++ "\n")) :=
    Session.converse_text rfl s (lines input.toList)
  have single : ∀ answer ∈ s.answers written, OneLine answer := by
    intro answer member
    obtain ⟨t, line, _, later, rfl⟩ := Session.exists_of_mem_answers member
    exact Session.oneLine_answer (clean later) _
  refine ⟨s.answers written, s.length_answers written, ?_, session, ?_, ?_, ?_⟩
  · rw [text, Text.lines_join single]
  · intro k line here t
    have kinds := t.evaluateSource_kinds (clean (s.answered_runs _)) (String.ofList line)
    have answer := Session.answers_getElem? (s := s) here
    refine ⟨answer, Session.answered_take_succ here, ?_, ?_⟩
    · intro v value
      rw [Session.answer_text, value] at answer
      rw [value] at kinds
      exact ⟨answer, kinds, Value.IsResult.not_list kinds⟩
    · intro e failed
      rw [Session.answer_text, failed] at answer
      rw [failed] at kinds
      exact ⟨answer, kinds⟩
  · intro answer member
    obtain ⟨t, line, inside, _, same⟩ := Session.exists_of_mem_answers member
    have missing := Session.answer_ne_missing (s := t) (List.mem_filter.mp inside).2
    refine ⟨same ▸ t.answer_begins _, single answer member, same ▸ missing⟩
  · intro cue
    exact (Session.converse_session _ s _).trans session.symm

end MiniLisp
