import Mathlib.Order.Nat
import MiniLisp.Proofs.Evaluation.Simulation
import MiniLisp.Proofs.Store.Lookup

/-! # Frames under other numbers

An evaluation that begins in one of the frames that two stores have in common goes through the same
steps in both, and what it makes in the one it makes in the other too, under other numbers. Frames
that only one of the two stores has are out of its sight, since nothing that it starts from leads
to them. `Relocation.simulation` relates the two evaluations by the change of numbers.

With two copies of one store there is nothing to renumber, and what is left says that evaluation
keeps a store closed.
-/

namespace MiniLisp

theorem exists_right_of_mem {α β : Type} {R : α → β → Prop} {as : List α} {bs : List β} {a : α}
    (related : List.Forall₂ R as bs) (member : a ∈ as) : ∃ b, R a b := by
  induction related with
  | nil => contradiction
  | cons first _ ih =>
      obtain rfl | later := List.mem_cons.mp member
      · exact ⟨_, first⟩
      · exact ih later

/-- If the value is a closure, it was made in such a frame. -/
def Value.MadeIn (P : FrameId → Prop) : Value → Prop
  | .closure _ _ i => P i
  | _ => True

/-- The value with the frame of a closure replaced. -/
def Value.moved (f : FrameId → FrameId) : Value → Value
  | .closure params body i => .closure params body (f i)
  | v => v

/-- The frame leads to such frames only. -/
structure Frame.LeadsInto (P : FrameId → Prop) (frame : Frame) : Prop where
  outer : ∀ o, frame.outer = some o → P o
  bindings : ∀ x v, (x, v) ∈ frame.bindings.entries → v.MadeIn P

def Frame.moved (f : FrameId → FrameId) (frame : Frame) : Frame :=
  frame.map id (Value.moved f) f

/-- Every frame leads to frames that are there, and outward to older ones. -/
structure Store.Closed (s : Store) : Prop where
  ordered : s.Ordered
  inside : ∀ (i : FrameId) (frame : Frame), s.frames[i]? = some frame →
    frame.LeadsInto (· < s.frames.size)

/-- All frames of the other store are in this one, as they were. -/
structure Store.Extends (t s : Store) : Prop where
  size_le : s.frames.size ≤ t.frames.size
  frame_eq : ∀ i < s.frames.size, t.frames[i]? = s.frames[i]?

theorem Store.Extends.refl (s : Store) : s.Extends s :=
  ⟨Nat.le_refl _, fun _ _ => rfl⟩

theorem Store.Extends.trans {s t u : Store} (second : u.Extends t) (first : t.Extends s) :
    u.Extends s where
  size_le := Nat.le_trans first.size_le second.size_le
  frame_eq i old :=
    (second.frame_eq i (Nat.lt_of_lt_of_le old first.size_le)).trans (first.frame_eq i old)

section

variable {P Q : FrameId → Prop} {f : FrameId → FrameId} {v : Value} {frame : Frame}

theorem Value.MadeIn.mono (made : v.MadeIn P) (wider : ∀ i, P i → Q i) : v.MadeIn Q := by
  cases v with
  | closure params body i => exact wider i made
  | number | boolean | symbol | list | builtin | foreign => trivial

theorem Value.moved_eq_self (fixed : ∀ i, P i → f i = i) (made : v.MadeIn P) : v.moved f = v := by
  cases v with
  | closure params body i => exact congrArg _ (fixed i made)
  | number | boolean | symbol | list | builtin | foreign => rfl

theorem Value.IsAtom.moved_eq (atom : v.IsAtom) (f : FrameId → FrameId) : v.moved f = v := by
  cases atom <;> rfl

theorem Value.IsAtom.madeIn (atom : v.IsAtom) (P : FrameId → Prop) : v.MadeIn P := by
  cases atom <;> trivial

theorem Value.render_moved (v : Value) : (v.moved f).render = v.render := by
  cases v <;> rfl

theorem Value.nesting_moved (v : Value) : (v.moved f).nesting = v.nesting := by
  cases v <;> simp [moved, nesting]

theorem Frame.LeadsInto.mono (leads : frame.LeadsInto P) (wider : ∀ i, P i → Q i) :
    frame.LeadsInto Q where
  outer o link := wider o (leads.outer o link)
  bindings x v member := (leads.bindings x v member).mono wider

theorem Frame.LeadsInto.insert (leads : frame.LeadsInto P) (x : Symbol) (made : v.MadeIn P) :
    ({ frame with bindings := frame.bindings.insert x v } : Frame).LeadsInto P where
  outer := leads.outer
  bindings y w member := by
    obtain ⟨_, rfl⟩ | old := Table.mem_insert member
    · exact made
    · exact leads.bindings y w old

theorem Frame.moved_insert (frame : Frame) (x : Symbol) (v : Value) :
    ({ frame with bindings := frame.bindings.insert x v } : Frame).moved f =
      { frame.moved f with bindings := (frame.moved f).bindings.insert x (v.moved f) } :=
  frame.map_insert Function.injective_id x v

theorem Frame.moved_eq_self (fixed : ∀ i, P i → f i = i) (leads : frame.LeadsInto P) :
    frame.moved f = frame := by
  obtain ⟨⟨entries⟩, outer⟩ := frame
  have bindings : entries.map (Prod.map id (Value.moved f)) = entries := by
    refine (List.map_congr_left fun entry member => ?_).trans (List.map_id entries)
    have same := Value.moved_eq_self fixed (leads.bindings entry.1 entry.2 member)
    exact Prod.ext rfl same
  have link : outer.map f = outer := by
    cases outer with
    | none => rfl
    | some o => exact congrArg some (fixed o (leads.outer o rfl))
  simp only [moved, map, Table.map, bindings, link]

end

/-- Two stores that have their first frames in common: how many, and how many frames each has. -/
structure Relocation where
  common : Nat
  first : Nat
  second : Nat
  common_le_first : common ≤ first
  common_le_second : common ≤ second

namespace Relocation

variable (r : Relocation)

/-- The frame of the second evaluation that stands for this one. -/
def image (i : FrameId) : FrameId :=
  if i < r.common then i else i - r.first + r.second

/-- A common frame, or one of those that the first evaluation made until it had this many. -/
def Visible (size i : Nat) : Prop :=
  i < r.common ∨ r.first ≤ i ∧ i < size

structure Values (w : Nat) (v v' : Value) : Prop where
  moved : v' = v.moved r.image
  made : v.MadeIn (r.Visible w)

/-- What is visible in the one store is in the other under its other number, and leads to nothing
but what is visible. -/
structure Stores (w : Nat) (s s' : Store) : Prop where
  size : s.frames.size = w
  grown : r.first ≤ w
  size' : s'.frames.size = r.image w
  ordered : s.Ordered
  ordered' : s'.Ordered
  frames : ∀ i, r.Visible w i → s'.frames[r.image i]? = s.frames[i]?.map (·.moved r.image)
  leads : ∀ i (frame : Frame), r.Visible w i → s.frames[i]? = some frame →
    frame.LeadsInto (r.Visible w)

def relations : Relations Nat where
  stores := r.Stores
  values := r.Values
  code w expr i expr' i' := expr' = expr ∧ r.Visible w i ∧ i' = r.image i
  errors e e' := e.kind = e'.kind ∧ e.message = e'.message ∧ e.depth = e'.depth

variable {r}

section

variable {w w' i j : Nat} {s s' t t' : Store} {v v' : Value}

theorem image_common (old : i < r.common) : r.image i = i :=
  if_pos old

theorem image_new (new : r.first ≤ i) : r.image i = i - r.first + r.second :=
  if_neg (Nat.not_lt_of_le (Nat.le_trans r.common_le_first new))

theorem image_inj (first : r.Visible w i) (second : r.Visible w j) :
    r.image i = r.image j ↔ i = j := by
  have := r.common_le_first
  have := r.common_le_second
  grind [image, Visible]

theorem Visible.mono (visible : r.Visible w i) (later : w ≤ w') : r.Visible w' i :=
  visible.imp_right (And.imp_right fun inside => Nat.lt_of_lt_of_le inside later)

theorem Visible.lt (visible : r.Visible w i) (grown : r.first ≤ w) : i < w := by
  have := r.common_le_first
  grind [Visible]

theorem Visible.image_lt (visible : r.Visible w i) (grown : r.first ≤ w) :
    r.image i < r.image w := by
  have := r.common_le_first
  have := r.common_le_second
  grind [image, Visible]

theorem Values.mono (same : r.Values w v v') (later : w ≤ w') : r.Values w' v v' :=
  ⟨same.moved, same.made.mono fun _ visible => visible.mono later⟩

theorem Values.atom (atom : v.IsAtom) : r.Values w v v :=
  ⟨(atom.moved_eq _).symm, atom.madeIn _⟩

theorem Values.map_of_forall₂ {args args' : List Value}
    (same : List.Forall₂ (r.Values w) args args') : args' = args.map (·.moved r.image) := by
  induction same with
  | nil => rfl
  | cons first _ ih => rw [first.moved, ih, List.map_cons]

theorem Values.alike (same : r.Values w v v') : v.Alike v' := by
  rw [same.moved]
  cases v <;> constructor

/-- No message tells in which frame a closure was made. -/
theorem errors_shown (same : r.Values w v v') {error : Value → Error} {kind : Error.Kind}
    {text : String} (shows : ∀ v, (error v).kind = kind ∧ (error v).message = text ++ v.render ∧
      (error v).shown? = some v) : r.relations.errors (error v) (error v') := by
  rw [same.moved]
  refine ⟨(shows _).1.trans (shows _).1.symm, ?_, ?_⟩
  · rw [(shows v).2.1, (shows _).2.1, Value.render_moved]
  · simp only [Error.depth, (shows _).2.2, Value.nesting_moved]

namespace Stores

variable (stores : r.Stores w s s')
include stores

theorem outer? (visible : r.Visible w i) : s'.outer? (r.image i) = (s.outer? i).map r.image := by
  unfold Store.outer?
  rw [stores.frames i visible]
  cases s.frames[i]? <;> rfl

theorem binding? (visible : r.Visible w i) (x : Symbol) :
    s'.binding? (r.image i) x = (s.binding? i x).map (·.moved r.image) := by
  unfold Store.binding?
  rw [stores.frames i visible]
  cases s.frames[i]? with
  | none => rfl
  | some frame => exact Table.find?_map Function.injective_id frame.bindings x

theorem visible_outer (visible : r.Visible w i) {o : FrameId} (link : s.outer? i = some o) :
    r.Visible w o := by
  obtain ⟨frame, found, link⟩ := Option.bind_eq_some_iff.mp link
  exact (stores.leads i frame visible found).outer o link

theorem made_binding (visible : r.Visible w i) {x : Symbol} (bound : s.binding? i x = some v) :
    v.MadeIn (r.Visible w) := by
  obtain ⟨frame, found, member⟩ := Store.entry_of_binding? bound
  exact (stores.leads i frame visible found).bindings x v member

theorem lookup? (visible : r.Visible w i) (x : Symbol) :
    Option.Rel (r.Values w) (s.lookup? i x) (s'.lookup? (r.image i) x) := by
  -- On the number of the frame, since outer frames have smaller ones.
  induction i using Nat.strongRecOn with
  | _ i ih =>
      rw [stores.ordered.lookup?_eq, stores.ordered'.lookup?_eq, stores.binding? visible,
        stores.outer? visible]
      cases bound : s.binding? i x with
      | some v => exact .some ⟨rfl, stores.made_binding visible bound⟩
      | none =>
          cases link : s.outer? i with
          | none => exact .none
          | some o => exact ih o (stores.ordered i o link) (stores.visible_outer visible link)

theorem lookup (visible : r.Visible w i) (x : Symbol) :
    r.relations.Outcomes (r.Values w) (s.lookup i x) (s'.lookup (r.image i) x) := by
  have found := stores.lookup? visible x
  unfold Store.lookup
  generalize s.lookup? i x = value at found ⊢
  generalize s'.lookup? (r.image i) x = value' at found ⊢
  cases found with
  | some same => exact .ok same
  | none => exact .error ⟨rfl, rfl, rfl⟩

theorem bind (visible : r.Visible w i) (x : Symbol) (same : r.Values w v v') :
    r.Stores w (s.bind i x v) (s'.bind (r.image i) x v') where
  size := by rw [Store.size_bind, stores.size]
  grown := stores.grown
  size' := by rw [Store.size_bind, stores.size']
  ordered := stores.ordered.bind i x v
  ordered' := stores.ordered'.bind _ x v'
  frames j inside := by
    rw [Store.frame_bind, Store.frame_bind, stores.frames j inside, same.moved]
    simp only [image_inj visible inside]
    split
    · cases s.frames[j]? with
      | none => rfl
      | some frame => exact congrArg some (frame.moved_insert x v).symm
    · rfl
  leads j frame inside found := by
    rw [Store.frame_bind] at found
    split at found
    · obtain ⟨old, present, rfl⟩ := Option.map_eq_some_iff.mp found
      exact (stores.leads j old inside present).insert x same.made
    · exact stores.leads j frame inside found

theorem push {frame : Frame} (frames : t.frames = s.frames.push frame)
    (frames' : t'.frames = s'.frames.push (frame.moved r.image))
    (leads : frame.LeadsInto (r.Visible w)) : r.Stores (w + 1) t t' where
  size := by rw [frames, Array.size_push, stores.size]
  grown := Nat.le_succ_of_le stores.grown
  size' := by
    have grown := stores.grown
    rw [frames', Array.size_push, stores.size', image_new grown, image_new (Nat.le_succ_of_le grown)]
    omega
  ordered := by
    refine stores.ordered.push frames fun o link => ?_
    rw [stores.size]
    exact (leads.outer o link).lt stores.grown
  ordered' := by
    refine stores.ordered'.push frames' fun o mapped => ?_
    obtain ⟨inner, link, rfl⟩ := Option.map_eq_some_iff.mp mapped
    rw [stores.size']
    exact (leads.outer inner link).image_lt stores.grown
  frames i visible := by
    have fresh : r.Visible (w + 1) w := .inr ⟨stores.grown, Nat.lt_succ_self w⟩
    rw [frames, frames', Array.getElem?_push, Array.getElem?_push, stores.size, stores.size']
    simp only [image_inj visible fresh]
    split
    · rfl
    · rename_i other
      exact stores.frames i (by grind [Visible])
  leads i inner visible found := by
    rw [frames, Array.getElem?_push, stores.size] at found
    have later : ∀ j, r.Visible w j → r.Visible (w + 1) j := fun j old => old.mono (Nat.le_succ w)
    split at found
    · cases found
      exact leads.mono later
    · rename_i other
      exact (stores.leads i inner (by grind [Visible]) found).mono later

end Stores

theorem Stores.openCall {params : Value} {outer : FrameId} {args args' : List Value}
    {called called' : FrameId} (stores : r.Stores w s s') (visible : r.Visible w outer)
    (arguments : List.Forall₂ (r.Values w) args args')
    (opened : s.openCall outer params args = (.ok called, t))
    (opened' : s'.openCall (r.image outer) params args' = (.ok called', t')) :
    r.Stores (w + 1) t t' ∧ r.Visible (w + 1) called ∧ called' = r.image called := by
  obtain ⟨formals, frame, named, _, content, fresh, frames, _⟩ := Store.openCall_eq_ok opened
  obtain ⟨_, frame', named', _, content', fresh', frames', _⟩ := Store.openCall_eq_ok opened'
  cases named.symm.trans named'
  have moved : frame' = frame.moved r.image := by
    rw [content, content', Values.map_of_forall₂ arguments]
    rw [Frame.moved, Frame.map_call Function.injective_id, List.map_id]
  have leads : frame.LeadsInto (r.Visible w) := by
    subst content
    refine ⟨fun o link => Option.some.inj link ▸ visible, fun x v member => ?_⟩
    have provided := (List.of_mem_zip (Table.mem_ofList member)).2
    obtain ⟨_, same⟩ := exists_right_of_mem arguments provided
    exact same.made
  refine ⟨stores.push frames (moved ▸ frames') leads, ?_, ?_⟩
  · rw [fresh, stores.size]
    exact .inr ⟨stores.grown, Nat.lt_succ_self w⟩
  · rw [fresh, fresh', stores.size, stores.size']

end

theorem step {w i : Nat} (visible : r.Visible w i) (expr : Value) :
    r.relations.Step w expr i expr (r.image i) := by
  apply Relations.Step.refl
  · exact fun _ => ⟨rfl, rfl, rfl⟩
  · exact fun _ stores => stores.lookup visible _
  · exact fun _ _ => ⟨rfl, visible, rfl⟩
  · exact fun _ _ _ => ⟨rfl, visible, rfl⟩
  · intro head x form same w' s s' v v' later stores value
    exact ⟨stores.bind (visible.mono later) x value, rfl, trivial⟩
  · exact fun _ => ⟨rfl, visible⟩

variable (r) in
def simulation : Simulation Nat where
  toRelations := r.relations
  values_mono later same := same.mono later
  code_mono later same := ⟨same.1, same.2.1.mono later, same.2.2⟩
  atom atom := .atom atom
  alike same := same.alike
  step same := by
    obtain ⟨rfl, visible, rfl⟩ := same
    exact step visible _
  arity same := by
    cases same.moved
    rfl
  call function stores arguments opened opened' := by
    cases function.moved
    obtain ⟨opening, visible, rfl⟩ := stores.openCall function.made arguments opened opened'
    exact ⟨_, Nat.le_succ _, opening, rfl, visible, rfl⟩
  errors_refl _ := ⟨rfl, rfl, rfl⟩
  errors_depth same := same.2.2
  errors_shown same :=
    ⟨errors_shown same fun _ => ⟨rfl, rfl, rfl⟩, errors_shown same fun _ => ⟨rfl, rfl, rfl⟩,
      fun _ => errors_shown same fun _ => ⟨rfl, rfl, rfl⟩⟩

section

variable {s t t' : Store}

/-- The frames that two stores were extended from are those that they have in common. -/
def ofExtensions (first : t.Extends s) (second : t'.Extends s) : Relocation where
  common := s.frames.size
  first := t.frames.size
  second := t'.frames.size
  common_le_first := first.size_le
  common_le_second := second.size_le

theorem ofExtensions_visible (first : t.Extends s) (second : t'.Extends s) {i : Nat}
    (visible : (ofExtensions first second).Visible t.frames.size i) : i < s.frames.size :=
  visible.resolve_right fun new => Nat.not_lt_of_le new.1 new.2

theorem ofExtensions_stores (closed : s.Closed) (ordered : t.Ordered) (ordered' : t'.Ordered)
    (first : t.Extends s) (second : t'.Extends s) :
    (ofExtensions first second).Stores t.frames.size t t' where
  size := rfl
  grown := Nat.le_refl _
  size' := by
    have start : _ = t.frames.size - t.frames.size + t'.frames.size :=
      image_new (r := ofExtensions first second) (Nat.le_refl t.frames.size)
    rw [start, Nat.sub_self, Nat.zero_add]
  ordered := ordered
  ordered' := ordered'
  frames i visible := by
    have old := ofExtensions_visible first second visible
    rw [image_common old, second.frame_eq i old, first.frame_eq i old]
    cases found : s.frames[i]? with
    | none => rfl
    | some frame =>
        have fixed := fun j => image_common (r := ofExtensions first second) (i := j)
        exact congrArg some (frame.moved_eq_self fixed (closed.inside i frame found)).symm
  leads i frame visible found := by
    have old := ofExtensions_visible first second visible
    rw [first.frame_eq i old] at found
    exact (closed.inside i frame found).mono fun _ => .inl

end

end Relocation

namespace Store.Closed

variable {s t : Store} {i : FrameId} (closed : s.Closed)
include closed

/-- Two copies of a store, with nothing to renumber. -/
theorem stores : (Relocation.ofExtensions (.refl s) (.refl s)).Stores s.frames.size s s :=
  Relocation.ofExtensions_stores closed closed.ordered closed.ordered (.refl s) (.refl s)

omit closed in
theorem of_stores {w : Nat} (stores : (Relocation.ofExtensions (.refl s) (.refl s)).Stores w t t) :
    t.Closed where
  ordered := stores.ordered
  inside i frame found := by
    have present : i < w := stores.size ▸ (Array.getElem?_eq_some_iff.mp found).1
    have visible : i < s.frames.size ∨ s.frames.size ≤ i ∧ i < w :=
      (Nat.lt_or_ge i s.frames.size).imp_right fun new => ⟨new, present⟩
    refine (stores.leads i frame visible found).mono fun j inside => ?_
    rw [stores.size]
    exact inside.lt stores.grown

theorem evaluate (present : i < s.frames.size) (depth : Nat) (expr : Value) :
    ((MiniLisp.evaluate depth expr i).run.run s).2.Closed := by
  let r := Relocation.ofExtensions (.refl s) (.refl s)
  have same : r.image i = i := Relocation.image_common present
  have code : r.relations.code s.frames.size expr i expr i := ⟨rfl, .inl present, same.symm⟩
  obtain ⟨w, _, stores, _⟩ := r.simulation.evaluate code closed.stores depth
  exact of_stores stores

theorem bind (present : i < s.frames.size) (x : Symbol) {v : Value} (atom : v.IsAtom) :
    (s.bind i x v).Closed := by
  let r := Relocation.ofExtensions (.refl s) (.refl s)
  have same : r.image i = i := Relocation.image_common present
  have written := closed.stores.bind (.inl present) x (.atom atom)
  rw [same] at written
  exact of_stores written

end Store.Closed

end MiniLisp
