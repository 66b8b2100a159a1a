import MiniLisp.Proofs.Evaluation.Depth
import MiniLisp.Proofs.Evaluation.Simulation
import MiniLisp.Proofs.Evaluation.Writes
import MiniLisp.Proofs.Store.Reach
import MiniLisp.Proofs.Value.Substitution

/-! # Calls and substitution

To call an abstraction of one parameter on a literal, and to evaluate its body with the literal put
in the place of the parameter, comes to the same. The call has one frame more, and some closures
that it makes look the parameter up there, where the closures of the other evaluation hold the
literal itself. Those are the closures made in a frame that sees the frame of the call: one from
which the name is found there. `Redex.simulation` relates the two evaluations by what their frames
see.
-/

namespace MiniLisp

/-- A literal for a name, in a frame of a store. -/
structure Redex where
  name : Symbol
  literal : Value
  store : Store
  frame : FrameId
  isLiteral : literal.IsLiteral
  formed : store.WellFormed
  present : frame < store.frames.size

namespace Redex

variable (r : Redex)

/-- The frame of the call, which the other evaluation does without. -/
def call : Nat :=
  r.store.frames.size

/-- The frame that the other evaluation has for this one. -/
def image (i : Nat) : Nat :=
  if i < r.call then i else if i = r.call then r.frame else i - 1

/-- How many frames the call has made so far, and which of them find the name in its frame. -/
structure Sight where
  size : Nat
  sees : Nat → Prop
  called : r.call < size
  sees_call : sees r.call
  inner : ∀ {i}, sees i → r.call ≤ i

variable {r}

instance : Preorder r.Sight where
  le w w' := w.size ≤ w'.size ∧ ∀ i < w.size, (w'.sees i ↔ w.sees i)
  le_refl w := ⟨Nat.le_refl _, fun _ _ => Iff.rfl⟩
  le_trans u v w first second :=
    ⟨Nat.le_trans first.1 second.1, fun i old =>
      (second.2 i (Nat.lt_of_lt_of_le old first.1)).trans (first.2 i old)⟩

/-- Values that come to the same, in the call and without it. -/
inductive Values (w : r.Sight) : Value → Value → Prop where
  | same (noClosure : ∀ params body frame, v ≠ .closure params body frame) : Values w v v
  | unseen (within : i < w.size) (unseen : ¬ w.sees i) :
      Values w (.closure params body i) (.closure params body (r.image i))
  | seen (within : i < w.size) (seen : w.sees i) (undefined : ¬ body.Defines r.name) :
      Values w (.closure params body i)
        (.closure params (if params.declares r.name then body else body.subst r.name r.literal)
          (r.image i))

/-- Code in a frame of the call, and what stands for it without the call. -/
inductive Code (w : r.Sight) : Value → FrameId → Value → FrameId → Prop where
  | unseen (within : i < w.size) (inner : r.call < i) (unseen : ¬ w.sees i) :
      Code w expr i expr (r.image i)
  | seen (within : i < w.size) (seen : w.sees i) (undefined : ¬ expr.Defines r.name)
      (unexposed : i = r.call → ∀ y, ¬ expr.Exposes y) :
      Code w expr i (expr.subst r.name r.literal) (r.image i)

/-- The stores hold the same, but for the frame of the call, and a frame sees that one exactly when
it does not bind the name itself and its outer frame sees it. -/
structure Stores (w : r.Sight) (s s' : Store) : Prop where
  size : s.frames.size = w.size
  size' : s'.frames.size + 1 = w.size
  ordered : s.Ordered
  ordered' : s'.Ordered
  outerCall : s.outer? r.call = some r.frame
  bindingCall : ∀ y, s.binding? r.call y = if y = r.name then some r.literal else none
  outer : ∀ i, i ≠ r.call → s'.outer? (r.image i) = (s.outer? i).map r.image
  binding : ∀ i y, i ≠ r.call →
    Option.Rel (Values w) (s.binding? i y) (s'.binding? (r.image i) y)
  seen : ∀ i < w.size, i ≠ r.call → w.sees i →
    s.binding? i r.name = none ∧ ∃ o, s.outer? i = some o ∧ w.sees o
  unseen : ∀ i < w.size, ¬ w.sees i →
    (s.binding? i r.name).isSome ∨ ∀ o, s.outer? i = some o → ¬ w.sees o
  kept : ∀ i < r.call, s'.frames[i]? = r.store.frames[i]?

variable (r) in
/-- The call on one side, the substituted body on the other. -/
def relations : Relations r.Sight where
  stores := Stores
  values := Values
  code := Code
  errors e e' := e.kind = e'.kind ∧ e.depth = e'.depth

theorem image_old {i : Nat} (old : i < r.call) : r.image i = i :=
  if_pos old

theorem image_call : r.image r.call = r.frame := by
  simp [image]

theorem image_inj {i j : Nat} (first : i ≠ r.call) (second : j ≠ r.call) :
    r.image i = r.image j ↔ i = j := by
  unfold image
  split <;> split <;> omega

theorem image_new {i : Nat} (new : r.call < i) : r.image i + 1 = i := by
  grind [image]

theorem image_lt {i n : Nat} (within : i < n) (called : r.call < n) : r.image i + 1 < n := by
  have present : r.frame < r.call := r.present
  grind [image]

section

variable {w w' : r.Sight} {s s' : Store} {i : FrameId} {v v' : Value}

theorem Values.mono (later : w ≤ w') (same : Values w v v') : Values w' v v' := by
  cases same with
  | same noClosure => exact .same noClosure
  | unseen within unseen =>
      have unseen' := mt (later.2 _ within).mp unseen
      exact .unseen (Nat.lt_of_lt_of_le within later.1) unseen'
  | seen within seen undefined =>
      have seen' := (later.2 _ within).mpr seen
      exact .seen (Nat.lt_of_lt_of_le within later.1) seen' undefined

theorem Values.mono_option {found found' : Option Value} (later : w ≤ w')
    (same : Option.Rel (Values w) found found') : Option.Rel (Values w') found found' := by
  cases same with
  | some same => exact .some (same.mono later)
  | none => exact .none

theorem Code.mono {expr expr' : Value} {i' : FrameId} (later : w ≤ w')
    (same : Code w expr i expr' i') : Code w' expr i expr' i' := by
  cases same with
  | unseen within inner unseen =>
      have unseen' := mt (later.2 _ within).mp unseen
      exact .unseen (Nat.lt_of_lt_of_le within later.1) inner unseen'
  | seen within seen undefined unexposed =>
      have seen' := (later.2 _ within).mpr seen
      exact .seen (Nat.lt_of_lt_of_le within later.1) seen' undefined unexposed

namespace Stores

variable (stores : Stores w s s')
include stores

/-- The literal is found wherever the frame of the call is seen. -/
theorem lookup_literal (within : i < w.size) (seen : w.sees i) :
    s.lookup? i r.name = some r.literal := by
  -- On the number of the frame, since outer frames have smaller ones.
  induction i using Nat.strongRecOn with
  | _ i ih =>
      rw [stores.ordered.lookup?_eq]
      by_cases here : i = r.call
      · rw [here, stores.bindingCall, if_pos rfl]
        rfl
      · obtain ⟨absent, o, link, seen⟩ := stores.seen i within here seen
        have older := stores.ordered i o link
        rw [absent, link]
        exact ih o older (Nat.lt_trans older within) seen

/-- All else is found in the frames that stand for each other. -/
theorem lookup? {y : Symbol} (within : i < w.size) (other : y = r.name → ¬ w.sees i) :
    Option.Rel (Values w) (s.lookup? i y) (s'.lookup? (r.image i) y) := by
  induction i using Nat.strongRecOn with
  | _ i ih =>
      rw [stores.ordered.lookup?_eq]
      by_cases here : i = r.call
      -- The other evaluation looks in the frame around the call instead.
      · subst here
        have different : y ≠ r.name := fun same => other same w.sees_call
        have old : r.frame < r.call := r.present
        have unseen : ¬ w.sees r.frame := fun seen => Nat.not_le_of_lt old (w.inner seen)
        have outside := ih r.frame old (Nat.lt_trans old within) fun _ => unseen
        rw [stores.bindingCall, if_neg different, stores.outerCall, image_call]
        rwa [image_old old] at outside
      · rw [stores.ordered'.lookup?_eq, stores.outer i here]
        have binding := stores.binding i y here
        generalize bound : s.binding? i y = found at binding ⊢
        generalize s'.binding? (r.image i) y = found' at binding ⊢
        cases binding with
        | some same => exact .some same
        | none =>
            cases link : s.outer? i with
            | none => exact .none
            | some o =>
                have older := stores.ordered i o link
                refine ih o older (Nat.lt_trans older within) fun same => ?_
                subst same
                obtain present | unseen := stores.unseen i within (other rfl)
                · rw [bound] at present
                  contradiction
                · exact unseen o link

theorem lookup {y : Symbol} (within : i < w.size) (other : y = r.name → ¬ w.sees i) :
    (relations r).Outcomes (Values w) (s.lookup i y) (s'.lookup (r.image i) y) := by
  have found := stores.lookup? within other
  unfold Store.lookup
  generalize s.lookup? i y = value at found ⊢
  generalize s'.lookup? (r.image i) y = value' at found ⊢
  cases found with
  | some same => exact .ok same
  | none => exact .error ⟨rfl, rfl⟩

theorem image_present (within : i < w.size) : r.image i < s'.frames.size := by
  have inside := image_lt within w.called
  have size' := stores.size'
  omega

theorem bind {x : Symbol} (within : i < w.size) (inner : r.call < i)
    (other : x = r.name → ¬ w.sees i) (same : Values w v v') :
    Stores w (s.bind i x v) (s'.bind (r.image i) x v') := by
  have present : i < s.frames.size := stores.size ▸ within
  have present' := stores.image_present within
  have apart : i ≠ r.call := Nat.ne_of_gt inner
  constructor
  case size => rw [Store.size_bind, stores.size]
  case size' => rw [Store.size_bind, stores.size']
  case ordered => exact stores.ordered.bind i x v
  case ordered' => exact stores.ordered'.bind _ x v'
  case outerCall => rw [Store.outer?_bind, stores.outerCall]
  case bindingCall =>
    intro y
    rw [Store.binding?_bind present, if_neg fun here => apart here.1, stores.bindingCall]
  case outer =>
    intro j other
    rw [Store.outer?_bind, Store.outer?_bind, stores.outer j other]
  case binding =>
    intro j y other
    rw [Store.binding?_bind present, Store.binding?_bind present']
    simp only [image_inj apart other]
    split
    · exact .some same
    · exact stores.binding j y other
  case seen =>
    intro j inside different seen
    obtain ⟨absent, link⟩ := stores.seen j inside different seen
    rw [Store.binding?_bind present, Store.outer?_bind, if_neg]
    · exact ⟨absent, link⟩
    · intro here
      exact other here.2 (here.1 ▸ seen)
  case unseen =>
    intro j inside unseen
    rw [Store.binding?_bind present, Store.outer?_bind]
    split
    · exact .inl rfl
    · exact stores.unseen j inside unseen
  case kept =>
    intro j old
    have image := image_new inner
    have older : j < r.image i := by omega
    rw [Store.frame_bind_other (Nat.ne_of_gt older), stores.kept j old]

end Stores

/-- A further frame, which sees the frame of the call if its outer frame does and it does not bind
the name itself. -/
def Sight.push (w : r.Sight) (frame : Frame) : r.Sight where
  size := w.size + 1
  sees i :=
    if i = w.size then
      frame.bindings.find? r.name = none ∧ ∃ o, frame.outer = some o ∧ w.sees o
    else w.sees i
  called := Nat.lt_succ_of_lt w.called
  sees_call := by
    rw [if_neg (Nat.ne_of_lt w.called)]
    exact w.sees_call
  inner {i} seen := by
    split at seen
    · rename_i fresh
      exact fresh ▸ Nat.le_of_lt w.called
    · exact w.inner seen

theorem Sight.push_old {frame : Frame} {j : Nat} (old : j < w.size) :
    (w.push frame).sees j ↔ w.sees j := by
  simp only [push, if_neg (Nat.ne_of_lt old)]

theorem Sight.push_new {frame : Frame} :
    (w.push frame).sees w.size ↔
      frame.bindings.find? r.name = none ∧ ∃ o, frame.outer = some o ∧ w.sees o := by
  simp only [push, if_pos]

theorem Sight.le_push (w : r.Sight) (frame : Frame) : w ≤ w.push frame :=
  ⟨Nat.le_succ _, fun _ old => push_old old⟩

theorem image_size (stores : Stores w s s') : r.image w.size = s'.frames.size := by
  have image := image_new w.called
  have size' := stores.size'
  omega

theorem Stores.push {t t' : Store} {frame frame' : Frame} {o : FrameId} (stores : Stores w s s')
    (frames : t.frames = s.frames.push frame) (frames' : t'.frames = s'.frames.push frame')
    (within : o < w.size) (link : frame.outer = some o) (link' : frame'.outer = some (r.image o))
    (related : ∀ y, Option.Rel (Values w) (frame.bindings.find? y) (frame'.bindings.find? y)) :
    Stores (w.push frame) t t' := by
  have later := w.le_push frame
  have called : r.call ≠ s.frames.size := stores.size ▸ Nat.ne_of_lt w.called
  have fresh : ∀ i, i ≠ r.call → (r.image i = s'.frames.size ↔ i = s.frames.size) := by
    intro i other
    rw [← image_size stores, stores.size, image_inj other (Nat.ne_of_gt w.called)]
  constructor
  case size => rw [frames, Array.size_push, stores.size]; rfl
  case size' => rw [frames', Array.size_push, stores.size']; rfl
  case ordered =>
    refine stores.ordered.push frames fun j linked => ?_
    cases link.symm.trans linked
    rwa [stores.size]
  case ordered' =>
    refine stores.ordered'.push frames' fun j linked => ?_
    cases link'.symm.trans linked
    exact stores.image_present within
  case outerCall => rw [Store.outer?_push frames, if_neg called, stores.outerCall]
  case bindingCall =>
    intro y
    rw [Store.binding?_push frames, if_neg called, stores.bindingCall]
  case outer =>
    intro i other
    rw [Store.outer?_push frames, Store.outer?_push frames']
    simp only [fresh i other]
    split
    · rw [link, link']
      rfl
    · exact stores.outer i other
  case binding =>
    intro i y other
    rw [Store.binding?_push frames, Store.binding?_push frames']
    simp only [fresh i other]
    split
    · exact Values.mono_option later (related y)
    · exact Values.mono_option later (stores.binding i y other)
  case seen =>
    intro i inside other seen
    rw [Store.binding?_push frames, Store.outer?_push frames, stores.size]
    by_cases here : i = w.size
    · subst here
      obtain ⟨absent, j, linked, seen⟩ := Sight.push_new.mp seen
      rw [if_pos rfl, if_pos rfl]
      cases link.symm.trans linked
      exact ⟨absent, o, link, (Sight.push_old within).mpr seen⟩
    · have old : i < w.size := Nat.lt_of_le_of_ne (Nat.le_of_lt_succ inside) here
      obtain ⟨absent, j, linked, seen⟩ := stores.seen i old other ((Sight.push_old old).mp seen)
      have older := Nat.lt_trans (stores.ordered i j linked) old
      rw [if_neg here, if_neg here]
      exact ⟨absent, j, linked, (Sight.push_old older).mpr seen⟩
  case unseen =>
    intro i inside unseen
    rw [Store.binding?_push frames, Store.outer?_push frames, stores.size]
    by_cases here : i = w.size
    · subst here
      rw [if_pos rfl, if_pos rfl]
      cases bound : frame.bindings.find? r.name with
      | some v => exact .inl rfl
      | none =>
          refine .inr fun j linked seen => unseen (Sight.push_new.mpr ⟨bound, j, linked, ?_⟩)
          cases link.symm.trans linked
          exact (Sight.push_old within).mp seen
    · have old : i < w.size := Nat.lt_of_le_of_ne (Nat.le_of_lt_succ inside) here
      rw [if_neg here, if_neg here]
      refine (stores.unseen i old (mt (Sight.push_old old).mpr unseen)).imp_right ?_
      intro outside j linked
      have older := Nat.lt_trans (stores.ordered i j linked) old
      exact mt (Sight.push_old older).mp (outside j linked)
  case kept =>
    intro i old
    have size' := stores.size'
    have called := w.called
    have different : i ≠ s'.frames.size := by omega
    rw [frames', Array.getElem?_push, if_neg different, stores.kept i old]

theorem Values.closure_inv {params params' body body' : Value} {o o' : FrameId}
    (same : Values w (.closure params body o) (.closure params' body' o')) :
    o < w.size ∧ params = params' ∧ o' = r.image o ∧
      (¬ w.sees o ∧ body' = body ∨ w.sees o ∧ ¬ body.Defines r.name ∧
        body' = if params.declares r.name then body else body.subst r.name r.literal) := by
  cases same with
  | same noClosure => exact absurd rfl (noClosure _ _ _)
  | unseen within unseen => exact ⟨within, rfl, rfl, .inl ⟨unseen, rfl⟩⟩
  | seen within seen undefined => exact ⟨within, rfl, rfl, .inr ⟨seen, undefined, rfl⟩⟩

theorem isSome_parameter {params : Value} {formals : List Symbol} {args : List Value} {x : Symbol}
    (named : params.formals? = some formals) (arity : formals.length = args.length) :
    ((Table.ofList (formals.zip args)).find? x).isSome ↔ params.declares x := by
  rw [Table.isSome_find?_ofList, List.map_fst_zip (Nat.le_of_eq arity), Value.declares_iff named]

theorem Stores.openCall {params params' body body' : Value} {o o' i' : FrameId}
    {args args' : List Value} {t t' : Store} (stores : Stores w s s')
    (function : Values w (.closure params body o) (.closure params' body' o'))
    (arguments : List.Forall₂ (Values w) args args')
    (opened : s.openCall o params args = (.ok i, t))
    (opened' : s'.openCall o' params' args' = (.ok i', t')) :
    ∃ w', w ≤ w' ∧ Stores w' t t' ∧ Code w' body i body' i' := by
  obtain ⟨within, rfl, rfl, bodies⟩ := function.closure_inv
  obtain ⟨formals, frame, named, arity, content, rfl, frames, _⟩ := Store.openCall_eq_ok opened
  obtain ⟨formals', frame', named', _, content', rfl, frames', _⟩ := Store.openCall_eq_ok opened'
  cases named.symm.trans named'
  have link : frame.outer = some o := by rw [content]
  have link' : frame'.outer = some (r.image o) := by rw [content']
  have related : ∀ y, Option.Rel (Values w) (frame.bindings.find? y) (frame'.bindings.find? y) := by
    rw [content, content']
    exact Table.rel_find?_ofList arguments
  have declared : (frame.bindings.find? r.name).isSome ↔ params.declares r.name := by
    rw [content]
    exact isSome_parameter named arity
  have later := w.le_push frame
  refine ⟨w.push frame, later, stores.push frames frames' within link link' related, ?_⟩
  rw [← image_size stores, stores.size]
  have inside : w.size < (w.push frame).size := Nat.lt_succ_self _
  obtain ⟨unseen, rfl⟩ | ⟨seen, undefined, rfl⟩ := bodies
  · refine .unseen inside w.called fun seen => ?_
    obtain ⟨_, j, linked, seen⟩ := Sight.push_new.mp seen
    cases link.symm.trans linked
    exact unseen seen
  · by_cases listed : params.declares r.name
    · rw [if_pos listed]
      refine .unseen inside w.called fun seen => ?_
      have absent := (Sight.push_new.mp seen).1
      have bound := declared.mpr listed
      rw [absent] at bound
      contradiction
    · rw [if_neg listed]
      have absent := Option.not_isSome_iff_eq_none.mp (mt declared.mp listed)
      refine .seen inside (Sight.push_new.mpr ⟨absent, o, link, seen⟩) undefined ?_
      intro called
      exact absurd called (Nat.ne_of_gt w.called)

theorem Values.literal (w : r.Sight) : Values w r.literal r.literal := by
  refine .same fun params body frame closure => ?_
  have literal := r.isLiteral
  rw [closure] at literal
  contradiction

theorem Values.symbol (w : r.Sight) (x : Symbol) : Values w (.symbol x) (.symbol x) :=
  .same fun _ _ _ => Value.noConfusion

theorem unseen_step {expr : Value} (within : i < w.size) (inner : r.call < i)
    (unseen : ¬ w.sees i) : (relations r).Step w expr i expr (r.image i) := by
  apply Relations.Step.refl
  · exact fun _ => ⟨rfl, rfl⟩
  · intro y s s' _ stores
    exact Stores.lookup stores within fun _ => unseen
  · intro head forms _ _
    exact .unseen within inner unseen
  · intro head forms _ form _
    exact .unseen within inner unseen
  · intro head x form _ w' s s' v v' later stores same
    have within' := Nat.lt_of_lt_of_le within later.1
    have unseen' := mt (later.2 i within).mp unseen
    exact ⟨Stores.bind stores within' inner (fun _ => unseen') same, Values.symbol w' x⟩
  · intro head params body _
    exact .unseen within unseen

theorem Code.part {items : List Value} {form : Value} (within : i < w.size) (seen : w.sees i)
    (undefined : ¬ (Value.list items).Defines r.name) (member : form ∈ items)
    (unexposed : i = r.call → ∀ y, ¬ form.Exposes y) :
    Code w form i (form.subst r.name r.literal) (r.image i) :=
  .seen within seen (fun inside => undefined (.item member inside)) unexposed

section

variable {head : Value} {k : Keyword} {forms : List Value}
variable (within : i < w.size) (seen : w.sees i)
variable (undefined : ¬ (Value.list (head :: forms)).Defines r.name)
variable (unexposed : i = r.call → ∀ y, ¬ (Value.list (head :: forms)).Exposes y)
include within seen undefined unexposed

theorem seen_application (plain : head.keyword? = none) :
    (relations r).Step w (.list (head :: forms)) i
      ((Value.list (head :: forms)).subst r.name r.literal) (r.image i) := by
  have part : ∀ form ∈ head :: forms,
      Code w form i (form.subst r.name r.literal) (r.image i) := by
    intro form member
    refine .part within seen undefined member fun called y inside => ?_
    exact unexposed called y (.part plain member inside)
  rw [Value.subst_application plain]
  refine .application plain (Value.keyword?_subst r.isLiteral plain) (part head (by simp)) ?_
  rw [List.forall₂_map_right_iff, List.forall₂_same]
  exact fun form member => part form (List.mem_cons_of_mem head member)

theorem seen_conditional (keyword : head.keyword? = some .conditional)
    (right : forms.length = Keyword.conditional.operandCount) :
    (relations r).Step w (.list (head :: forms)) i
      ((Value.list (head :: forms)).subst r.name r.literal) (r.image i) := by
  have part : ∀ form ∈ forms, Code w form i (form.subst r.name r.literal) (r.image i) := by
    intro form member
    refine .part within seen undefined (by simp [member]) fun called y inside => ?_
    exact unexposed called y (.operand keyword member inside)
  obtain ⟨test, yes, no, rfl⟩ := List.length_eq_three.mp right
  rw [Value.subst_form keyword]
  exact .conditional keyword keyword (part test (by simp)) (part yes (by simp))
    (part no (by simp))

theorem seen_definition (keyword : head.keyword? = some .definition)
    (right : forms.length = Keyword.definition.operandCount) :
    (relations r).Step w (.list (head :: forms)) i
      ((Value.list (head :: forms)).subst r.name r.literal) (r.image i) := by
  obtain ⟨target, form, rfl⟩ := List.length_eq_two.mp right
  rw [Value.subst_form keyword]
  by_cases named : ∃ x, target = .symbol x
  · obtain ⟨x, rfl⟩ := named
    have different : x ≠ r.name := fun same => undefined (same ▸ .target keyword)
    have inner : r.call < i := by
      refine Nat.lt_of_le_of_ne (w.inner seen) fun called => ?_
      exact unexposed called.symm x (.target keyword)
    have value : Code w form i (form.subst r.name r.literal) (r.image i) := by
      refine .part within seen undefined (by simp) fun called y inside => ?_
      exact unexposed called y (.value keyword inside)
    refine .definition keyword keyword value ?_
    intro w' s s' v v' later stores same
    have within' := Nat.lt_of_lt_of_le within later.1
    exact ⟨Stores.bind stores within' inner (fun same => absurd same different) same,
      Values.symbol w' x⟩
  · have noSymbol : ∀ x, target ≠ .symbol x := fun x same => named ⟨x, same⟩
    exact .target keyword keyword noSymbol noSymbol ⟨rfl, rfl⟩

omit unexposed in
theorem seen_abstraction (keyword : head.keyword? = some .abstraction)
    (right : forms.length = Keyword.abstraction.operandCount) :
    (relations r).Step w (.list (head :: forms)) i
      ((Value.list (head :: forms)).subst r.name r.literal) (r.image i) := by
  obtain ⟨params, body, rfl⟩ := List.length_eq_two.mp right
  rw [Value.subst_form keyword]
  have undefined : ¬ body.Defines r.name := fun inside => undefined (.item (by simp) inside)
  exact .abstraction keyword keyword (.seen within seen undefined)

end

theorem seen_step {expr : Value} (within : i < w.size) (seen : w.sees i)
    (undefined : ¬ expr.Defines r.name) (unexposed : i = r.call → ∀ y, ¬ expr.Exposes y) :
    (relations r).Step w expr i (expr.subst r.name r.literal) (r.image i) := by
  cases expr with
  | number => exact .atom .number
  | boolean => exact .atom .boolean
  | builtin => exact .atom .builtin
  | closure => exact .closure
  | foreign => exact .foreign
  | symbol y =>
      rw [Value.subst_symbol]
      split
      · rename_i same
        subst same
        refine .known r.isLiteral.isAtom fun stores => ⟨r.literal, ?_, Values.literal w⟩
        rw [Store.lookup, Stores.lookup_literal stores within seen]
      · rename_i different
        exact .symbol fun stores => Stores.lookup stores within fun same => absurd same different
  | list items =>
      cases items with
      | nil => exact .empty
      | cons head forms =>
          cases keyword : head.keyword? with
          | none => exact seen_application within seen undefined unexposed keyword
          | some k =>
              by_cases right : forms.length = k.operandCount
              · cases k with
                | conditional => exact seen_conditional within seen undefined unexposed keyword right
                | definition => exact seen_definition within seen undefined unexposed keyword right
                | abstraction => exact seen_abstraction within seen undefined keyword right
              · rw [Value.subst_form keyword, Value.substOperands_wrong right]
                exact .operandCount keyword keyword right rfl

end

variable (r) in
def simulation : Simulation r.Sight where
  toRelations := relations r
  values_mono := Values.mono
  code_mono := Code.mono
  atom atom := .same fun _ _ _ closure => by subst closure; contradiction
  alike same := by
    cases same with
    | same => exact .refl _
    | unseen | seen => exact .closure
  step code := by
    cases code with
    | unseen within inner unseen => exact unseen_step within inner unseen
    | seen within seen undefined unexposed => exact seen_step within seen undefined unexposed
  arity same := by
    obtain ⟨_, same, _⟩ := Values.closure_inv same
    rw [same]
  call function stores arguments opened opened' :=
    Stores.openCall stores function arguments opened opened'
  errors_refl _ := ⟨rfl, rfl⟩
  errors_depth same := same.2
  errors_shown same := by
    cases same with
    | same => exact ⟨⟨rfl, rfl⟩, ⟨rfl, rfl⟩, fun _ => ⟨rfl, rfl⟩⟩
    | unseen | seen => exact ⟨⟨rfl, rfl⟩, ⟨rfl, rfl⟩, fun _ => ⟨rfl, rfl⟩⟩

end Redex

end MiniLisp
