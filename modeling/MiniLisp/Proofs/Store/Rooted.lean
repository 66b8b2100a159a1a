import Mathlib.Data.List.Chain
import MiniLisp.Proofs.Store.Reach

namespace MiniLisp

namespace Store

/-- The store is well-formed, and the root is its only frame without an outer one. -/
structure RootedAt (s : Store) (root : FrameId) : Prop extends s.WellFormed where
  present : root < s.frames.size
  outermost : ∀ i < s.frames.size, s.outer? i = none ↔ i = root

/-- The frames lead from `i` outward to the root, each to its own outer frame, and no further. -/
structure WayOut (s : Store) (i root : FrameId) (way : List FrameId) : Prop where
  begins : way.head? = some i
  linked : way.IsChain fun j o => s.outer? j = some o
  ends : way.getLast? = some root
  stops : s.outer? root = none

variable {s t : Store} {root i j : FrameId} {x y : Symbol} {v : Value}

theorem isSome_binding?_bind (bound : (s.binding? j y).isSome) :
    ((s.bind i x v).binding? j y).isSome := by
  by_cases within : i < s.frames.size
  · rw [binding?_bind within]
    split
    · rfl
    · exact bound
  · unfold binding? at bound ⊢
    rwa [frames_bind_absent within]

theorem isSome_binding?_push {frame : Frame} (frames : t.frames = s.frames.push frame)
    (bound : (s.binding? j y).isSome) : (t.binding? j y).isSome := by
  have old := present_of_isSome_binding? bound
  rwa [binding?_push frames, if_neg (Nat.ne_of_lt old)]

namespace RootedAt

variable (rooted : s.RootedAt root)
include rooted

theorem bind (within : v.Within s.frames.size) : (s.bind i x v).RootedAt root where
  ordered := rooted.ordered.bind i x v
  within := by
    rw [size_bind]
    exact Binds.bind rooted.within within
  present := by
    rw [size_bind]
    exact rooted.present
  outermost j inside := by
    rw [size_bind] at inside
    rw [outer?_bind]
    exact rooted.outermost j inside

theorem openCall {outer : FrameId} {params : Value} {args : List Value}
    (opened : s.openCall outer params args = (.ok i, t)) (older : outer < s.frames.size)
    (arguments : ∀ v ∈ args, v.Within s.frames.size) : t.RootedAt root := by
  obtain ⟨formals, frame, named, _, rfl, fresh, frames, _⟩ := openCall_eq_ok opened
  have size := size_openCall opened
  have grown : s.frames.size ≤ t.frames.size := size ▸ Nat.le_succ _
  refine ⟨⟨?_, ?_⟩, Nat.lt_of_lt_of_le rooted.present grown, fun j inside => ?_⟩
  · exact rooted.ordered.push frames fun o link => Option.some.inj link ▸ older
  · refine Binds.openCall (rooted.within.mono fun x v within => within.mono grown) opened named ?_
    intro x v member
    exact (arguments v (List.of_mem_zip member).2).mono grown
  · rw [size] at inside
    rw [outer?_push frames]
    split
    · rename_i new
      have other := Nat.ne_of_gt rooted.present
      exact iff_of_false (by simp) (new ▸ other)
    · rename_i old
      exact rooted.outermost j (Nat.lt_of_le_of_ne (Nat.le_of_lt_succ inside) old)

theorem chain_wayOut (inside : i < s.frames.size) : s.WayOut i root (s.chain i) := by
  -- On the number of the frame, since outer frames are older.
  induction i using Nat.strongRecOn with
  | ind i ih =>
      cases link : s.outer? i with
      | none =>
          obtain rfl := (rooted.outermost i inside).mp link
          rw [chain_root inside link]
          exact ⟨rfl, .singleton i, rfl, link⟩
      | some o =>
          have older := rooted.ordered i o link
          obtain ⟨begins, linked, ends, stops⟩ := ih o older (Nat.lt_trans older inside)
          rw [rooted.ordered.chain_link link]
          refine ⟨rfl, List.isChain_cons.mpr ⟨fun b first => ?_, linked⟩, ?_, stops⟩
          · rw [begins] at first
            exact link.trans first
          · rw [List.getLast?_cons, ends, Option.getD_some]

theorem isSome_find? (inside : i < s.frames.size) (bound : (s.binding? root x).isSome) :
    (s.find? i x).isSome := by
  have ends := (rooted.chain_wayOut inside).ends
  exact List.find?_isSome.mpr ⟨root, List.mem_of_getLast? ends, bound⟩

end RootedAt

/-- A frame alone, with the builtins in it. -/
theorem rootedAt_install : ((allocate {} none).2.install 0).RootedAt 0 := by
  have alone : (allocate {} none).2.RootedAt 0 := by
    refine ⟨WellFormed.empty.allocate (by simp), Nat.zero_lt_one, fun i inside => ?_⟩
    obtain rfl : i = 0 := Nat.lt_one_iff.mp inside
    exact iff_of_true rfl rfl
  exact install_induction (P := (·.RootedAt 0)) alone fun t b rooted =>
    rooted.bind nofun

end Store

end MiniLisp
