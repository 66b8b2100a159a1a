import Mathlib.Data.List.Induction
import MiniLisp.Proofs.Store.Content

namespace MiniLisp

namespace Store

variable {s : Store}

theorem walk_congr {s' : Store} (same : ∀ i, s.outer? i = s'.outer? i) (n : Nat) (i : FrameId) :
    s.walk n i = s'.walk n i := by
  induction n generalizing i with
  | zero => rfl
  | succ n ih => simp only [walk, same, ih]

/-- Every outer frame is older than the frame itself. -/
def Ordered (s : Store) : Prop :=
  ∀ i o, s.outer? i = some o → o < i

theorem present_of_outer? {i o : FrameId} (link : s.outer? i = some o) : i < s.frames.size := by
  apply Classical.byContradiction
  intro absent
  simp [outer?, Array.getElem?_eq_none (Nat.le_of_not_lt absent)] at link

theorem chain_root {i : FrameId} (present : i < s.frames.size) (root : s.outer? i = none) :
    s.chain i = [i] := by
  unfold chain
  cases size : s.frames.size with
  | zero => exact absurd (size ▸ present) (Nat.not_lt_zero i)
  | succ n => rw [walk, root]

namespace Ordered

theorem bind (ordered : s.Ordered) (i : FrameId) (x : Symbol) (v : Value) :
    (s.bind i x v).Ordered := by
  intro j o link
  rw [outer?_bind] at link
  exact ordered j o link

theorem push {t : Store} {frame : Frame} (ordered : s.Ordered)
    (frames : t.frames = s.frames.push frame)
    (older : ∀ o, frame.outer = some o → o < s.frames.size) : t.Ordered := by
  intro i o link
  rw [outer?_push frames] at link
  split at link
  · rename_i fresh
    exact fresh ▸ older o link
  · exact ordered i o link

theorem walk_eq (ordered : s.Ordered) {i : FrameId} {n m : Nat} (enough : i < n) (enough' : i < m) :
    s.walk n i = s.walk m i := by
  induction n generalizing i m with
  | zero => contradiction
  | succ n ih =>
      match m with
      | m + 1 =>
          unfold walk
          split
          · rename_i o link
            have older := ordered i o link
            rw [ih (Nat.lt_of_lt_of_le older (Nat.le_of_lt_succ enough))
              (Nat.lt_of_lt_of_le older (Nat.le_of_lt_succ enough'))]
          · rfl

theorem chain_link (ordered : s.Ordered) {i o : FrameId} (link : s.outer? i = some o) :
    s.chain i = i :: s.chain o := by
  have present := present_of_outer? link
  have older := ordered i o link
  unfold chain
  cases size : s.frames.size with
  | zero => exact absurd (size ▸ present) (Nat.not_lt_zero i)
  | succ n =>
      rw [size] at present
      have inside : o < n := Nat.lt_of_lt_of_le older (Nat.le_of_lt_succ present)
      have shorter : s.walk n o = s.walk (n + 1) o :=
        ordered.walk_eq inside (Nat.lt_succ_of_lt inside)
      rw [← shorter, walk, link]

theorem find?_eq (ordered : s.Ordered) (i : FrameId) (x : Symbol) :
    s.find? i x =
      if (s.binding? i x).isSome then some i else (s.outer? i).bind fun o => s.find? o x := by
  unfold find?
  by_cases present : i < s.frames.size
  · cases link : s.outer? i with
    | none => rw [chain_root present link, List.find?_singleton, Option.bind_none]
    | some o =>
        rw [ordered.chain_link link, List.find?_cons, Option.bind_some]
        cases (s.binding? i x).isSome <;> rfl
  · have absent : s.frames[i]? = none := Array.getElem?_eq_none (Nat.le_of_not_lt present)
    have unbound : s.binding? i x = none := by simp [binding?, absent]
    have rootless : s.outer? i = none := by simp [outer?, absent]
    rw [unbound, rootless]
    unfold chain
    cases s.frames.size with
    | zero => rfl
    | succ n => simp [walk, rootless, unbound]

theorem lookup?_eq (ordered : s.Ordered) (i : FrameId) (x : Symbol) :
    s.lookup? i x = (s.binding? i x).or ((s.outer? i).bind fun o => s.lookup? o x) := by
  unfold lookup?
  rw [ordered.find?_eq]
  cases bound : s.binding? i x with
  | some v => exact bound
  | none => cases s.outer? i <;> rfl

end Ordered

section

variable {t : Store} {i j k : FrameId} {x y : Symbol} {v : Value}

/-- The way outward from `j` comes to `i`, and no frame before binds the symbol. -/
def Exposes (s : Store) (j i : FrameId) (x : Symbol) : Prop :=
  ∃ before after, s.chain j = before ++ i :: after ∧ ∀ k ∈ before, s.binding? k x = none

theorem find?_eq_some_iff :
    s.find? j x = some i ↔ s.Exposes j i x ∧ (s.binding? i x).isSome := by
  unfold find? Exposes
  rw [List.find?_eq_some_iff_append, and_comm]
  simp

theorem lookup?_eq_some_iff :
    s.lookup? j x = some v ↔ ∃ i, s.Exposes j i x ∧ s.binding? i x = some v := by
  rw [lookup?, Option.bind_eq_some_iff]
  refine exists_congr fun i => ?_
  rw [find?_eq_some_iff, and_assoc]
  refine and_congr_right fun _ => and_iff_right_of_imp fun bound => ?_
  rw [bound, Option.isSome_some]

theorem lookup?_eq_none_iff : s.lookup? j x = none ↔ ∀ k ∈ s.chain j, s.binding? k x = none := by
  have missed : s.lookup? j x = none ↔ s.find? j x = none := by
    unfold lookup?
    cases found : s.find? j x with
    | none => simp
    | some k => simpa using Option.isSome_iff_ne_none.mp (find?_eq_some_iff.mp found).2
  rw [missed, find?, List.find?_eq_none]
  simp

theorem lookup_eq_ok_iff : s.lookup j x = .ok v ↔ s.lookup? j x = some v := by
  unfold lookup
  cases s.lookup? j x <;> simp

theorem lookup_eq_error_iff : s.lookup j x = .error (.unbound x) ↔ s.lookup? j x = none := by
  unfold lookup
  cases s.lookup? j x <;> simp

@[simp]
theorem chain_bind (s : Store) (i j : FrameId) (x : Symbol) (v : Value) :
    (s.bind i x v).chain j = s.chain j := by
  unfold chain
  rw [size_bind]
  exact walk_congr (outer?_bind s i · x v) _ _

variable (within : i < s.frames.size)
include within

theorem unbound_of_bind (unbound : (s.bind i x v).binding? k y = none) :
    s.binding? k y = none := by
  rw [binding?_bind within] at unbound
  split at unbound
  · contradiction
  · exact unbound

theorem find?_bind_exposed (exposed : s.Exposes j i x) : (s.bind i x v).find? j x = some i := by
  obtain ⟨before, after, way, hidden⟩ := exposed
  have bound : ((s.bind i x v).binding? i x).isSome := by
    rw [binding?_bind within, if_pos ⟨rfl, rfl⟩, Option.isSome_some]
  unfold find?
  rw [chain_bind, way, List.find?_append,
    List.find?_cons_of_pos (p := fun k => ((s.bind i x v).binding? k x).isSome) bound]
  cases found : before.find? fun k => ((s.bind i x v).binding? k x).isSome with
  | none => rfl
  | some k =>
      have written := List.find?_some found
      rw [binding?_bind within, hidden k (List.mem_of_find?_eq_some found)] at written
      by_cases here : i = k
      · rw [here, Option.some_or]
      · simp [here] at written

/-- A binding that another one hides, or of another symbol, is not what is found. -/
theorem find?_bind_ne (hidden : ¬ (y = x ∧ s.Exposes j i x))
    (found : (s.bind i x v).find? j y = some k) : ¬ (i = k ∧ x = y) := by
  rintro ⟨rfl, rfl⟩
  obtain ⟨⟨before, after, way, earlier⟩, _⟩ := find?_eq_some_iff.mp found
  exact hidden ⟨rfl, before, after, by rw [← way, chain_bind],
    fun k member => unbound_of_bind within (earlier k member)⟩

theorem find?_bind_hidden (hidden : ¬ (y = x ∧ s.Exposes j i x)) :
    (s.bind i x v).find? j y = s.find? j y := by
  cases found : (s.bind i x v).find? j y with
  | none =>
      unfold find? at found ⊢
      rw [chain_bind, List.find?_eq_none] at found
      refine (List.find?_eq_none.mpr fun k member bound => found k member ?_).symm
      rw [binding?_bind within]
      split
      · rfl
      · exact bound
  | some k =>
      have other := find?_bind_ne within hidden found
      obtain ⟨⟨before, after, way, earlier⟩, bound⟩ := find?_eq_some_iff.mp found
      rw [binding?_bind within, if_neg other] at bound
      have exposed : s.Exposes j k y := ⟨before, after, by rw [← way, chain_bind],
        fun m member => unbound_of_bind within (earlier m member)⟩
      exact (find?_eq_some_iff.mpr ⟨exposed, bound⟩).symm

theorem lookup_bind_exposed (exposed : s.Exposes j i x) :
    (s.bind i x v).lookup j x = .ok v := by
  rw [lookup_eq_ok_iff, lookup?, find?_bind_exposed within exposed, Option.bind_some,
    binding?_bind within, if_pos ⟨rfl, rfl⟩]

theorem lookup_bind_hidden (hidden : ¬ (y = x ∧ s.Exposes j i x)) :
    (s.bind i x v).lookup j y = s.lookup j y := by
  have same : (s.bind i x v).lookup? j y = s.lookup? j y := by
    unfold lookup?
    rw [← find?_bind_hidden (v := v) within hidden]
    refine Option.bind_congr fun k found => ?_
    rw [binding?_bind within, if_neg (find?_bind_ne within hidden found)]
  unfold lookup
  rw [same]

end

end Store

def Frame.map (name : Symbol → Symbol) (value : Value → Value) (link : FrameId → FrameId)
    (frame : Frame) : Frame where
  bindings := frame.bindings.map name value
  outer := frame.outer.map link

namespace Frame

variable {name : Symbol → Symbol} {value : Value → Value} {link : FrameId → FrameId}
variable (injective : Function.Injective name)
include injective

theorem map_insert (frame : Frame) (x : Symbol) (v : Value) :
    ({ frame with bindings := frame.bindings.insert x v } : Frame).map name value link =
      { frame.map name value link with
        bindings := (frame.map name value link).bindings.insert (name x) (value v) } :=
  congrArg (Frame.mk · _) (Table.map_insert injective frame.bindings x v)

theorem map_call (formals : List Symbol) (args : List Value) (outer : FrameId) :
    ({ bindings := .ofList (formals.zip args), outer := some outer } : Frame).map name value link =
      { bindings := .ofList ((formals.map name).zip (args.map value))
        outer := some (link outer) } := by
  rw [List.zip_map]
  exact congrArg (Frame.mk · _) (Table.map_ofList injective _)

end Frame

end MiniLisp
