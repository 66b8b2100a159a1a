import MiniLisp.Proofs.Evaluation.Rules
import MiniLisp.Proofs.Store.Content

/-! # Invariants of evaluation

An evaluation comes upon code, names to bind, results and errors. A `Discipline` is a property of
each of the four such that every single rule of evaluation leads from the properties of what it
starts from to those of what it ends with. Whole evaluations then do so too: the frames keep binding
such names to such results, also when the evaluation fails.
-/

namespace MiniLisp

structure Discipline where
  code : Value → Prop
  name : Symbol → Prop
  result : Value → Prop
  error : Error → Prop
  item : code (.list items) → v ∈ items → code v
  spelled : code (.symbol x) → name x
  atom : v.IsAtom → result v
  symbol : name x → result (.symbol x)
  closure : code params → code body → result (.closure params body frame)
  opened : result (.closure params body frame) → code params ∧ code body
  tooDeep : error .tooDeep
  unbound : name x → error (.unbound x)
  refused : Refused expr e → code expr → error e
  inapplicable : Inapplicable function count e → result function → error e
  notBoolean : result v → error (.notBoolean v)
  called : (∀ v ∈ args, result v) → Builtin.call b args = .error e → error e

namespace Discipline

variable (D : Discipline)

/-- The frames bind names to results as they are to be. -/
def Holds (s : Store) : Prop :=
  s.Binds fun x v => D.name x ∧ D.result v

/-- The outcome is a value with the property or an error as it is to be. -/
def Expects {α : Type} (P : α → Prop) : Except Error α → Prop
  | .ok a => P a
  | .error e => D.error e

variable {D} {s t : Store} {i : FrameId}

theorem Expects.map {α β : Type} {P : α → Prop} {Q : β → Prop} {outcome : Except Error α} {f : α → β}
    (expected : D.Expects P outcome) (image : ∀ a, P a → Q (f a)) :
    D.Expects Q (outcome.map f) := by
  cases outcome with
  | error e => exact expected
  | ok a => exact image a expected

theorem formals {params : Value} {formals : List Symbol} (code : D.code params)
    (found : params.formals? = some formals) : ∀ x ∈ formals, D.name x := by
  intro x member
  cases Value.eq_list_of_formals? found
  exact D.spelled (D.item code (List.mem_map_of_mem member))

theorem call {b : Builtin} {args : List Value} (results : ∀ v ∈ args, D.result v) :
    D.Expects D.result (b.call args) := by
  cases called : b.call args with
  | ok v => exact D.atom (Builtin.call_isAtom called)
  | error e => exact D.called results called

namespace Holds

theorem lookup (holds : D.Holds s) {x : Symbol} (named : D.name x) :
    D.Expects D.result (s.lookup i x) := by
  cases found : s.lookup i x with
  | ok v => exact (holds.of_lookup found).2
  | error e =>
      cases Store.lookup_eq_error found
      exact D.unbound named

theorem openCall (holds : D.Holds s) {outer : FrameId} {params : Value} {args : List Value}
    (opened : s.openCall outer params args = (.ok i, t)) (code : D.code params)
    (results : ∀ v ∈ args, D.result v) : D.Holds t := by
  obtain ⟨formals, _, found, _⟩ := Store.openCall_eq_ok opened
  refine Store.Binds.openCall holds opened found fun x v member => ?_
  have named := Discipline.formals code found x (List.of_mem_zip member).1
  exact ⟨named, results v (List.of_mem_zip member).2⟩

end Holds

end Discipline

section

variable {D : Discipline}

mutual

/-- Evaluation keeps what the frames hold as it is to be, also when it fails. -/
theorem Evaluates.keeps : Evaluates expr frame s outcome t → D.code expr → D.Holds s →
    D.Holds t ∧ D.Expects D.result outcome
  | .refused reason, code, holds => ⟨holds, D.refused reason code⟩
  | .symbol, code, holds => ⟨holds, holds.lookup (D.spelled code)⟩
  | .number, _, holds => ⟨holds, D.atom .number⟩
  | .boolean, _, holds => ⟨holds, D.atom .boolean⟩
  | .builtin, _, holds => ⟨holds, D.atom .builtin⟩
  | .testFails _ tested, code, holds => tested.keeps (D.item code (by simp)) holds
  | .notBoolean _ tested _ reason, code, holds => by
      have ⟨kept, result⟩ := tested.keeps (D.item code (by simp)) holds
      obtain rfl | rfl := reason
      · exact ⟨kept, D.notBoolean result⟩
      · exact ⟨kept, D.tooDeep⟩
  | .branch _ tested chosen, code, holds => by
      have ⟨kept, _⟩ := tested.keeps (D.item code (by simp)) holds
      exact chosen.keeps (D.item code (by split <;> simp)) kept
  | .valueFails _ evaluated, code, holds => evaluated.keeps (D.item code (by simp)) holds
  | .definition _ evaluated, code, holds => by
      have ⟨kept, result⟩ := evaluated.keeps (D.item code (by simp)) holds
      have named := D.spelled (D.item code (List.mem_cons_of_mem _ List.mem_cons_self))
      exact ⟨Store.Binds.bind kept ⟨named, result⟩, D.symbol named⟩
  | .abstraction _, code, holds =>
      ⟨holds, D.closure (D.item code (by simp)) (D.item code (by simp))⟩
  | .headFails _ first, code, holds => first.keeps (D.item code (by simp)) holds
  | .inapplicable _ first reason, code, holds => by
      have ⟨kept, function⟩ := first.keeps (D.item code (by simp)) holds
      exact ⟨kept, D.inapplicable reason function⟩
  | .argumentsFail _ first arguments, code, holds => by
      have ⟨kept, _⟩ := first.keeps (D.item code (by simp)) holds
      exact arguments.keeps (fun form member => D.item code (by simp [member])) kept
  | .primitive _ first arguments result, code, holds => by
      have ⟨kept, _⟩ := first.keeps (D.item code (by simp)) holds
      have ⟨after, args⟩ :=
        arguments.keeps (fun form member => D.item code (by simp [member])) kept
      obtain rfl | rfl := result
      · exact ⟨after, Discipline.call args⟩
      · exact ⟨after, D.tooDeep⟩
  | .call _ first arguments opened result, code, holds => by
      have ⟨kept, function⟩ := first.keeps (D.item code (by simp)) holds
      have ⟨after, args⟩ :=
        arguments.keeps (fun form member => D.item code (by simp [member])) kept
      -- The code of the closure was as it is to be when the closure was made.
      have ⟨params, body⟩ := D.opened function
      exact result.keeps body (after.openCall opened params args)

theorem EvaluatesAll.keeps : EvaluatesAll forms frame s outcome t → (∀ v ∈ forms, D.code v) →
    D.Holds s → D.Holds t ∧ D.Expects (fun args => ∀ v ∈ args, D.result v) outcome
  | .tooDeep, _, holds => ⟨holds, D.tooDeep⟩
  | .nil, _, holds => ⟨holds, List.forall_mem_nil _⟩
  | .firstFails first, code, holds => first.keeps (code _ List.mem_cons_self) holds
  | .cons first rest, code, holds => by
      have ⟨kept, result⟩ := first.keeps (code _ List.mem_cons_self) holds
      have ⟨after, others⟩ := rest.keeps (fun v member => code v (by simp [member])) kept
      exact ⟨after, others.map fun _ inside => List.forall_mem_cons.mpr ⟨result, inside⟩⟩

end

end

end MiniLisp
