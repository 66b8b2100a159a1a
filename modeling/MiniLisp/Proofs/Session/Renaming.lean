import Mathlib.Logic.Equiv.Basic
import MiniLisp.Proofs.Evaluation.Invariant
import MiniLisp.Proofs.Evaluation.Renaming
import MiniLisp.Proofs.Reading.Renaming
import MiniLisp.Proofs.Session.Run

namespace MiniLisp

/-- A renaming of what can be written in source text. -/
structure SourceRenaming (f : Symbol → Symbol) : Prop extends Renaming f where
  builtin : ∀ b : Builtin, f b.symbol = b.symbol
  spelled : ∀ x : Symbol, x.Spellable → (f x).Spellable

/-- The second text has the tokens of the first one, renamed. -/
def Rewritten (f : Symbol → Symbol) (source source' : String) : Prop :=
  Token.tokenize source' = (Token.tokenize source).map (Token.rename f)

namespace Session

inductive Input.Rewritten (f : Symbol → Symbol) : Input → Input → Prop where
  | line (same : MiniLisp.Rewritten f source source') : Rewritten f (.line source) (.line source')
  | prelude (same : MiniLisp.Rewritten f text text') : Rewritten f (.prelude text) (.prelude text')

def rename (f : Symbol → Symbol) (s : Session) : Session :=
  { s with store := s.store.rename f }

end Session

section

variable {f : Symbol → Symbol} {s : Session} {source source' : String}

theorem exists_rewritten (spelled : ∀ x : Symbol, x.Spellable → (f x).Spellable)
    (source : String) : ∃ source', Rewritten f source source' := by
  have solid : Token.AllSolid (Token.tokenize source) := fun _ => Token.solid_of_mem_tokenize
  exact ⟨_, (Token.layout_spaced (solid.rename spelled)).tokenize_eq⟩

namespace Session

theorem start_rename (keeps : ∀ b : Builtin, f b.symbol = b.symbol) (consistent : Renaming f)
    (depth : Nat) : (start depth).rename f = start depth := by
  have store : (start depth).store.rename f = (start depth).store := by
    refine Store.install_induction (P := fun t => t.rename f = t) ?_ fun t b before => ?_
    · simp [Store.allocate, Store.rename, Frame.rename, Frame.map, Table.map]
    · rw [Store.bind_rename consistent, before, keeps]
      rfl
  exact congrArg (Session.mk · depth) store

theorem evaluate_renamed (consistent : Renaming f) (s : Session) (expr : Value) :
    let run := s.evaluate expr
    let run' := (s.rename f).evaluate (expr.rename f)
    run'.1.mapError Error.kind = (run.1.map (Value.rename f)).mapError Error.kind ∧
      run'.2 = run.2.rename f := by
  have ⟨outcome, store⟩ := evaluate_rename consistent s.store s.depth expr root
  exact ⟨outcome, congrArg (Session.mk · s.depth) store⟩

theorem ignoring_rename (s : Session) (rest : List Token) :
    (s.rename f).ignoring (rest.map (Token.rename f)) = (s.ignoring rest).rename f := by
  unfold ignoring
  cases rest with
  | nil => rfl
  | cons => simp [note, rename, Store.note_rename, Event.rename]

theorem evaluateSource_rename (consistent : SourceRenaming f) (s : Session)
    (same : Rewritten f source source') :
    let run := s.evaluateSource source
    let run' := (s.rename f).evaluateSource source'
    run'.1.mapError Error.kind = (run.1.map (Value.rename f)).mapError Error.kind ∧
      run'.2 = run.2.rename f := by
  have solid : Token.AllSolid (Token.tokenize source) := fun _ => Token.solid_of_mem_tokenize
  have renamed := read_rename consistent.spelled solid
  rw [← same] at renamed
  cases read : Value.read (Token.tokenize source) with
  | error reason =>
      rw [read] at renamed
      rw [evaluateSource_of_unreadable read, evaluateSource_of_unreadable renamed]
      exact ⟨rfl, rfl⟩
  | ok result =>
      rw [read] at renamed
      rw [evaluateSource_of_read read, evaluateSource_of_read renamed, ignoring_rename]
      exact evaluate_renamed consistent.toRenaming _ _

theorem evaluateForms_rename (consistent : Renaming f) (s : Session) (forms : List Value) :
    let run := s.evaluateForms forms
    let run' := (s.rename f).evaluateForms (forms.map (Value.rename f))
    run'.1.mapError Error.kind = run.1.mapError Error.kind ∧ run'.2 = run.2.rename f := by
  induction forms generalizing s with
  | nil => exact ⟨rfl, rfl⟩
  | cons form rest ih =>
      have ⟨same, left⟩ := evaluate_renamed consistent s form
      simp only [List.map_cons, evaluateForms]
      generalize s.evaluate form = first at same left ⊢
      generalize (s.rename f).evaluate (form.rename f) = second at same left ⊢
      obtain ⟨outcome, t⟩ := first
      obtain ⟨outcome', t'⟩ := second
      cases outcome with
      | error e =>
          cases outcome' with
          | error e' => exact ⟨congrArg Except.error (Except.error.inj same), left⟩
          | ok v' => contradiction
      | ok v =>
          cases outcome' with
          | error e' => contradiction
          | ok v' =>
              cases left
              exact ih t

theorem evaluatePrelude_rename (consistent : SourceRenaming f) (s : Session)
    (rewritten : Rewritten f source source') :
    let run := s.evaluatePrelude source
    let run' := (s.rename f).evaluatePrelude source'
    run'.1.mapError Error.kind = run.1.mapError Error.kind ∧ run'.2 = run.2.rename f := by
  have solid : Token.AllSolid (Stream.ofSource source).tokens :=
    fun _ => Token.solid_of_mem_tokenize
  have stream : Stream.ofSource source' = (Stream.ofSource source).rename f :=
    congrArg (Stream.mk · 0) rewritten
  have ⟨same, left⟩ :=
    s.evaluateForms_rename consistent.toRenaming (Stream.ofSource source).readAll.1
  unfold evaluatePrelude
  rw [stream, readAll_rename consistent.spelled solid]
  generalize (Stream.ofSource source).readAll = read at same left ⊢
  obtain ⟨forms, failure, last⟩ := read
  simp only at same left ⊢
  generalize s.evaluateForms forms = first at same left ⊢
  generalize (s.rename f).evaluateForms (forms.map (Value.rename f)) = second at same left ⊢
  obtain ⟨outcome, t⟩ := first
  obtain ⟨outcome', t'⟩ := second
  cases left
  cases outcome with
  | error e =>
      cases outcome' with
      | error e' => exact ⟨same, rfl⟩
      | ok => contradiction
  | ok u =>
      cases outcome' with
      | error => contradiction
      | ok u' => cases failure <;> exact ⟨rfl, rfl⟩

theorem after_rename (consistent : SourceRenaming f) (s : Session) {inputs inputs' : List Input}
    (same : List.Forall₂ (Input.Rewritten f) inputs inputs') :
    (s.rename f).after inputs' = (s.after inputs).rename f := by
  induction same generalizing s with
  | nil => rfl
  | cons first _ ih =>
      cases first with
      | line same =>
          have step := (s.evaluateSource_rename consistent same).2
          simp only [after]
          rw [step, ih]
      | prelude same =>
          have step := (s.evaluatePrelude_rename consistent same).2
          simp only [after]
          rw [step, ih]

end Session

end

/-- Under a renaming that keeps keywords, every value has in every store the renamed outcome and
leaves the renamed store. Under one that keeps the builtins too and can be carried out in source
text, every session that is given renamed inputs answers each of them with the renamed outcome. -/
theorem evaluation_commutes_with_renaming {f : Symbol → Symbol} (consistent : Renaming f) :
    (∀ (s : Store) (depth : Nat) (expr : Value) (frame : FrameId),
      let run := (evaluate depth expr frame).run.run s
      let run' := (evaluate depth (expr.rename f) frame).run.run (s.rename f)
      run'.1.mapError Error.kind = (run.1.map (Value.rename f)).mapError Error.kind ∧
        run'.2 = run.2.rename f) ∧
    (SourceRenaming f →
      (∀ source, ∃ source', Rewritten f source source') ∧
      ∀ (depth : Nat) (inputs inputs' : List Session.Input),
        List.Forall₂ (Session.Input.Rewritten f) inputs inputs' →
        let s := (Session.start depth).after inputs
        let s' := (Session.start depth).after inputs'
        s' = s.rename f ∧ ∀ source source', Rewritten f source source' →
          (s'.evaluateSource source').1.mapError Error.kind =
            ((s.evaluateSource source).1.map (Value.rename f)).mapError Error.kind ∧
          (s'.evaluatePrelude source').1.mapError Error.kind =
            (s.evaluatePrelude source).1.mapError Error.kind) := by
  refine ⟨evaluate_rename consistent, fun textual => ⟨exists_rewritten textual.spelled, ?_⟩⟩
  intro depth inputs inputs' rewritten s s'
  have left : s' = s.rename f := by
    have renamed := (Session.start depth).after_rename textual rewritten
    rwa [Session.start_rename textual.builtin consistent] at renamed
  refine ⟨left, fun source source' same => ?_⟩
  rw [left]
  exact ⟨(s.evaluateSource_rename textual same).1, (s.evaluatePrelude_rename textual same).1⟩

/-- Two names that are exchanged: the second definition looks up what the first one bound. -/
theorem evaluation_commutes_with_renaming_swapped :
    let f : Symbol → Symbol := Equiv.swap ⟨"x"⟩ ⟨"y"⟩
    let inputs : List Session.Input := [.line "(define y true)"]
    let inputs' : List Session.Input := [.line "(define x true)"]
    let s := (Session.start 20).after inputs
    let s' := (Session.start 20).after inputs'
    (SourceRenaming f ∧ List.Forall₂ (Session.Input.Rewritten f) inputs inputs' ∧
      Rewritten f "(define x (if y y x))" "(define y (if x x y))") ∧
    (s.evaluateSource "(define x (if y y x))").1 = .ok (.symbol ⟨"x"⟩) ∧
    (s'.evaluateSource "(define y (if x x y))").1 = .ok (.symbol ⟨"y"⟩) := by
  intro f inputs inputs' s s'
  have written (x : Symbol) (atom : (Value.ofAtom x.name).symbol? = some x)
      (token : .atom x.name ∈ Token.tokenize x.name) : x.Spellable := by
    have readable := (Token.solid_of_mem_tokenize token).readable
    rw [Value.symbol?_eq_some atom] at readable
    cases readable with
    | symbol spellable => exact spellable
  have spelledX : Symbol.Spellable ⟨"x"⟩ := written _ (by decide +kernel) (by decide +kernel)
  have spelledY : Symbol.Spellable ⟨"y"⟩ := written _ (by decide +kernel) (by decide +kernel)
  have consistent : SourceRenaming f := by
    refine ⟨⟨(Equiv.swap _ _).injective, fun k => ?_⟩, fun b => ?_, fun z spelled => ?_⟩
    · cases k <;> decide +kernel
    · cases b <;> decide +kernel
    · by_cases isX : z = ⟨"x"⟩
      · have swapped : f z = ⟨"y"⟩ := isX ▸ Equiv.swap_apply_left _ _
        exact swapped ▸ spelledY
      · by_cases isY : z = ⟨"y"⟩
        · have swapped : f z = ⟨"x"⟩ := isY ▸ Equiv.swap_apply_right _ _
          exact swapped ▸ spelledX
        · have kept : f z = z := Equiv.swap_apply_of_ne_of_ne isX isY
          exact kept.symm ▸ spelled
  have first : Rewritten f "(define y true)" "(define x true)" := by
    unfold Rewritten
    decide +kernel
  have second : Rewritten f "(define x (if y y x))" "(define y (if x x y))" := by
    unfold Rewritten
    decide +kernel
  have rewritten : List.Forall₂ (Session.Input.Rewritten f) inputs inputs' :=
    .cons (.line first) .nil
  have symbol : (s.evaluateSource "(define x (if y y x))").1.toOption.bind Value.symbol? =
      some ⟨"x"⟩ := by
    decide +kernel
  have answer : (s.evaluateSource "(define x (if y y x))").1 = .ok (.symbol ⟨"x"⟩) := by
    generalize (s.evaluateSource "(define x (if y y x))").1 = outcome at symbol ⊢
    obtain ⟨v, done, named⟩ := Option.bind_eq_some_iff.mp symbol
    cases outcome with
    | error => contradiction
    | ok w =>
        cases done
        rw [Value.symbol?_eq_some named]
  have ⟨_, commutes⟩ := evaluation_commutes_with_renaming consistent.toRenaming
  have ⟨_, sessions⟩ := commutes consistent
  have same : (s'.evaluateSource "(define y (if x x y))").1.mapError Error.kind =
      ((s.evaluateSource "(define x (if y y x))").1.map (Value.rename f)).mapError Error.kind :=
    ((sessions 20 inputs inputs' rewritten).2 _ _ second).1
  have renamed : f ⟨"x"⟩ = ⟨"y"⟩ := Equiv.swap_apply_left _ _
  refine ⟨⟨consistent, rewritten, second⟩, answer, ?_⟩
  generalize (s'.evaluateSource "(define y (if x x y))").1 = outcome' at same ⊢
  rw [answer] at same
  cases outcome' with
  | error => cases same
  | ok v =>
      have value : v = .symbol (f ⟨"x"⟩) := Except.ok.inj same
      rw [value, renamed]

end MiniLisp
