import Mathlib.Data.List.Basic
import MiniLisp.Proofs.Store.Writing
import MiniLisp.Proofs.Table

namespace MiniLisp

namespace Store

/-- Every binding of every frame has the property. -/
def Binds (P : Symbol → Value → Prop) (s : Store) : Prop :=
  ∀ (i : FrameId) (frame : Frame), s.frames[i]? = some frame →
    ∀ x v, (x, v) ∈ frame.bindings.entries → P x v

theorem entry_of_binding? {s : Store} {i : FrameId} {x : Symbol} {v : Value}
    (found : s.binding? i x = some v) :
    ∃ frame, s.frames[i]? = some frame ∧ (x, v) ∈ frame.bindings.entries := by
  obtain ⟨frame, present, bound⟩ := Option.bind_eq_some_iff.mp found
  exact ⟨frame, present, Table.mem_of_find? bound⟩

theorem exists_binding?_of_lookup {s : Store} {i : FrameId} {x : Symbol} {v : Value}
    (found : s.lookup i x = .ok v) : ∃ j, s.binding? j x = some v := by
  unfold lookup at found
  split at found
  · rename_i looked
    cases found
    obtain ⟨j, _, bound⟩ := Option.bind_eq_some_iff.mp looked
    exact ⟨j, bound⟩
  · contradiction

namespace Binds

variable {P : Symbol → Value → Prop} {s t : Store} {i : FrameId} {x : Symbol} {v : Value}

theorem empty : Binds P {} := by
  intro i frame found
  contradiction

theorem mono {Q : Symbol → Value → Prop} (holds : s.Binds P) (weaker : ∀ x v, P x v → Q x v) :
    s.Binds Q :=
  fun i frame present x v member => weaker x v (holds i frame present x v member)

theorem bind (holds : s.Binds P) (new : P x v) : (s.bind i x v).Binds P := by
  intro j frame found
  rw [frame_bind] at found
  split at found
  · obtain ⟨old, present, rfl⟩ := Option.map_eq_some_iff.mp found
    intro y w member
    rcases Table.mem_insert member with ⟨rfl, rfl⟩ | before
    · exact new
    · exact holds j old present y w before
  · exact holds j frame found

theorem push {frame : Frame} (holds : s.Binds P) (frames : t.frames = s.frames.push frame)
    (new : ∀ x v, (x, v) ∈ frame.bindings.entries → P x v) : t.Binds P := by
  intro j other found
  rw [frames, Array.getElem?_push] at found
  split at found
  · cases found
    exact new
  · exact holds j other found

theorem allocate (holds : s.Binds P) (outer : Option FrameId) : (s.allocate outer).2.Binds P :=
  holds.push rfl fun _ _ => List.not_mem_nil.elim

theorem openCall {outer : FrameId} {params : Value} {args : List Value} {formals : List Symbol}
    (holds : s.Binds P) (opened : s.openCall outer params args = (.ok i, t))
    (named : params.formals? = some formals) (new : ∀ x v, (x, v) ∈ formals.zip args → P x v) :
    t.Binds P := by
  obtain ⟨_, frame, same, _, rfl, _, frames, _⟩ := openCall_eq_ok opened
  cases named.symm.trans same
  exact holds.push frames fun x v member => new x v (Table.mem_ofList member)

theorem of_lookup (holds : s.Binds P) (found : s.lookup i x = .ok v) : P x v := by
  obtain ⟨j, bound⟩ := exists_binding?_of_lookup found
  obtain ⟨frame, present, member⟩ := entry_of_binding? bound
  exact holds j frame present x v member

end Binds

theorem lookup_eq_error {s : Store} {i : FrameId} {x : Symbol} {e : Error}
    (failed : s.lookup i x = .error e) : e = .unbound x := by
  unfold lookup at failed
  split at failed
  · contradiction
  · cases failed
    rfl

end Store

end MiniLisp
