import MiniLisp.Proofs.Evaluation.Simulation
import MiniLisp.Proofs.Store.Lookup

namespace MiniLisp

/-- The symbol does not occur in the value, unless it is a keyword and heads a list there. -/
inductive Value.Avoids (x : Symbol) : Value → Prop where
  | number : Avoids x (.number n)
  | boolean : Avoids x (.boolean b)
  | builtin : Avoids x (.builtin b)
  | closure : Avoids x (.closure params body frame)
  | foreign : Avoids x (.foreign v)
  | symbol (different : y ≠ x) : Avoids x (.symbol y)
  | empty : Avoids x (.list [])
  | list (first : Avoids x head) (rest : ∀ form ∈ forms, Avoids x form) :
      Avoids x (.list (head :: forms))
  | keyword (keyword : Keyword.ofName? x.name = some k) (rest : ∀ form ∈ forms, Avoids x form) :
      Avoids x (.list (.symbol x :: forms))

namespace Value.Avoids

variable {x : Symbol} {head form : Value} {forms : List Value}

theorem first (avoids : Avoids x (.list (head :: forms))) (plain : head.keyword? = none) :
    Avoids x head := by
  cases avoids with
  | list first _ => exact first
  | keyword keyword _ => cases plain.symm.trans keyword

theorem rest (avoids : Avoids x (.list (head :: forms))) : ∀ form ∈ forms, Avoids x form := by
  cases avoids with
  | list _ rest => exact rest
  | keyword _ rest => exact rest

theorem ne {y : Symbol} (avoids : Avoids x (.symbol y)) : y ≠ x := by
  cases avoids with
  | symbol different => exact different

end Value.Avoids

/-- The value is not a closure with the symbol in its body. -/
def Value.BodyAvoids (x : Symbol) (v : Value) : Prop :=
  ∀ params body frame, v = .closure params body frame → body.Avoids x

theorem Value.IsAtom.bodyAvoids {c : Value} (atom : c.IsAtom) (x : Symbol) : c.BodyAvoids x := by
  intro params body frame same
  cases atom <;> contradiction

theorem Value.bodyAvoids_symbol (x y : Symbol) : (Value.symbol y).BodyAvoids x :=
  fun _ _ _ same => Value.noConfusion same

namespace Store

variable {x y : Symbol} {s s' t t' : Store} {i : FrameId} {v : Value}

/-- No closure that is bound to another symbol has this one in its body. -/
def BodiesAvoid (x : Symbol) (s : Store) : Prop :=
  ∀ i y v, y ≠ x → s.binding? i y = some v → v.BodyAvoids x

theorem BodiesAvoid.bind (clean : s.BodiesAvoid x) (new : v.BodyAvoids x) :
    (s.bind i y v).BodiesAvoid x := by
  intro j z w other found
  by_cases within : i < s.frames.size
  · rw [binding?_bind within] at found
    split at found
    · cases found
      exact new
    · exact clean j z w other found
  · simp only [binding?, frames_bind_absent within] at found
    exact clean j z w other found

theorem BodiesAvoid.push {frame : Frame} (clean : s.BodiesAvoid x)
    (frames : t.frames = s.frames.push frame)
    (new : ∀ y v, frame.bindings.find? y = some v → v.BodyAvoids x) : t.BodiesAvoid x := by
  intro j z w other found
  rw [binding?_push frames] at found
  split at found
  · exact new z w found
  · exact clean j z w other found

/-- The stores differ in nothing but in whether and to what the symbol is bound. -/
structure AgreesExcept (x : Symbol) (s s' : Store) : Prop where
  size : s.frames.size = s'.frames.size
  outer : ∀ i, s.outer? i = s'.outer? i
  bindings : ∀ i y, y ≠ x → s.binding? i y = s'.binding? i y

namespace AgreesExcept

theorem find? (agrees : AgreesExcept x s s') (other : y ≠ x) (i : FrameId) :
    s.find? i y = s'.find? i y := by
  unfold Store.find? chain
  rw [agrees.size, walk_congr agrees.outer]
  congr
  funext j
  rw [agrees.bindings j y other]

theorem lookup (agrees : AgreesExcept x s s') (other : y ≠ x) (i : FrameId) :
    s.lookup i y = s'.lookup i y := by
  unfold Store.lookup lookup?
  rw [agrees.find? other]
  congr
  funext j
  exact agrees.bindings j y other

theorem rebind (s : Store) (i : FrameId) (x : Symbol) (v : Value) :
    AgreesExcept x s (s.bind i x v) where
  size := (size_bind s i x v).symm
  outer j := (outer?_bind s i j x v).symm
  bindings j y other := by
    by_cases within : i < s.frames.size
    · rw [binding?_bind within, if_neg fun same => other same.2.symm]
    · simp only [binding?, frames_bind_absent within]

theorem bind (agrees : AgreesExcept x s s') (i : FrameId) (y : Symbol) (v : Value) :
    AgreesExcept x (s.bind i y v) (s'.bind i y v) where
  size := by rw [size_bind, size_bind, agrees.size]
  outer j := by rw [outer?_bind, outer?_bind, agrees.outer]
  bindings j z other := by
    by_cases within : i < s.frames.size
    · rw [binding?_bind within, binding?_bind (agrees.size ▸ within), agrees.bindings j z other]
    · have within' : ¬ i < s'.frames.size := agrees.size ▸ within
      simp only [binding?, frames_bind_absent within, frames_bind_absent within']
      exact agrees.bindings j z other

theorem push {frame : Frame} (agrees : AgreesExcept x s s')
    (frames : t.frames = s.frames.push frame) (frames' : t'.frames = s'.frames.push frame) :
    AgreesExcept x t t' where
  size := by rw [frames, frames', Array.size_push, Array.size_push, agrees.size]
  outer j := by rw [outer?_push frames, outer?_push frames', agrees.size, agrees.outer]
  bindings j y other := by
    rw [binding?_push frames, binding?_push frames', agrees.size, agrees.bindings j y other]

end AgreesExcept

end Store

/-- Two evaluations of one value in stores that differ in the bindings of a symbol only. -/
def unreadRelations (x : Symbol) : Relations OneWorld where
  stores _ s s' := s.AgreesExcept x s' ∧ s.BodiesAvoid x
  values _ v v' := v.BodyAvoids x ∧ v = v'
  code _ expr i expr' i' := expr.Avoids x ∧ expr = expr' ∧ i = i'
  errors e e' := e = e'

section

variable {x y : Symbol} {s s' t t' : Store} {i i' : FrameId}

theorem unread_lookup (other : y ≠ x) (agrees : s.AgreesExcept x s') (clean : s.BodiesAvoid x)
    (i : FrameId) :
    (unreadRelations x).Outcomes ((unreadRelations x).values .world) (s.lookup i y) (s'.lookup i y) := by
  rw [← agrees.lookup other]
  cases found : s.lookup i y with
  | error e => exact .error rfl
  | ok v =>
      obtain ⟨j, bound⟩ := Store.exists_binding?_of_lookup found
      exact .ok ⟨clean j y v other bound, rfl⟩

theorem unread_step {expr : Value} (avoids : expr.Avoids x) (i : FrameId) :
    (unreadRelations x).Step .world expr i expr i := by
  apply Relations.Step.refl
  · exact fun _ => rfl
  · intro y s s' same related
    subst same
    exact unread_lookup avoids.ne related.1 related.2 i
  · intro head forms same plain
    subst same
    exact ⟨avoids.first plain, rfl, rfl⟩
  · intro head forms same form member
    subst same
    exact ⟨avoids.rest form member, rfl, rfl⟩
  · intro head y form _ _ s s' v v' _ related value
    obtain ⟨agrees, clean⟩ := related
    obtain ⟨harmless, rfl⟩ := value
    exact ⟨⟨agrees.bind i y v, clean.bind harmless⟩, Value.bodyAvoids_symbol x y, rfl⟩
  · intro head params body same
    subst same
    refine ⟨fun _ _ _ closure => ?_, rfl⟩
    cases closure
    exact avoids.rest body (by simp)

theorem unread_call {params : Value} {outer : FrameId} {args : List Value}
    (harmless : ∀ v ∈ args, v.BodyAvoids x) (agrees : s.AgreesExcept x s')
    (clean : s.BodiesAvoid x) (opened : s.openCall outer params args = (.ok i, t))
    (opened' : s'.openCall outer params args = (.ok i', t')) :
    i = i' ∧ t.AgreesExcept x t' ∧ t.BodiesAvoid x := by
  obtain ⟨formals, frame, named, _, rfl, rfl, frames, _⟩ := Store.openCall_eq_ok opened
  obtain ⟨formals', frame', named', _, rfl, rfl, frames', _⟩ := Store.openCall_eq_ok opened'
  cases named.symm.trans named'
  refine ⟨agrees.size, agrees.push frames frames', clean.push frames fun y v found => ?_⟩
  exact harmless v (List.of_mem_zip (Table.mem_ofList (Table.mem_of_find? found))).2

end

def unread (x : Symbol) : Simulation OneWorld where
  toRelations := unreadRelations x
  values_mono _ same := same
  code_mono _ same := same
  atom atom := ⟨atom.bodyAvoids x, rfl⟩
  alike same := same.2 ▸ .refl _
  step same := by
    obtain ⟨avoids, rfl, rfl⟩ := same
    exact unread_step avoids _
  arity same := by
    cases same.2
    rfl
  call function stores arguments opened opened' := by
    obtain ⟨harmless, same⟩ := (List.forall₂_and_left _ _).mp arguments
    obtain ⟨body, closure⟩ := function
    cases closure
    cases List.forall₂_eq_eq_eq ▸ same
    obtain ⟨called, agrees, clean⟩ := unread_call harmless stores.1 stores.2 opened opened'
    exact ⟨.world, le_refl _, ⟨agrees, clean⟩, body _ _ _ rfl, rfl, called⟩
  errors_refl _ := rfl
  errors_depth same := same ▸ rfl
  errors_shown same := by
    obtain ⟨_, rfl⟩ := same
    exact ⟨rfl, rfl, fun _ => rfl⟩

theorem unread_outcomes {x : Symbol} {outcome outcome' : Except Error Value}
    (outcomes : (unread x).Outcomes ((unread x).values .world) outcome outcome') :
    outcome = outcome' := by
  cases outcomes with
  | ok same => exact congrArg _ same.2
  | error same => exact congrArg _ same

/-- In two stores that differ in nothing but the bindings of `x`, a value has the same outcome and
leaves stores that differ in nothing but the bindings of `x`, if `x` occurs neither in the value nor
in the body of any closure that is bound to another symbol. A keyword may occur at the head of
lists there: no binding of it is ever looked at. -/
theorem unread_name_irrelevant {x : Symbol} {s s' : Store} {expr : Value}
    (agrees : s.AgreesExcept x s') (unmentioned : expr.Avoids x) (bodies : s.BodiesAvoid x)
    (depth : Nat) (frame : FrameId) :
    let run := (evaluate depth expr frame).run.run s
    let run' := (evaluate depth expr frame).run.run s'
    run.1 = run'.1 ∧ run.2.AgreesExcept x run'.2 := by
  intro run run'
  obtain ⟨_, _, stores, outcomes⟩ :=
    (unread x).evaluate (w := .world) ⟨unmentioned, rfl, rfl⟩ ⟨agrees, bodies⟩ depth
  exact ⟨unread_outcomes outcomes, stores.1⟩

/-- A binding of `if` does not change what a conditional comes to. -/
theorem unread_name_irrelevant_keyword :
    let x : Symbol := ⟨"if"⟩
    let expr : Value := .list [.symbol x, .boolean true, .symbol ⟨"y"⟩, .boolean true]
    let s := ((Store.allocate {} none).2.bind 0 ⟨"y"⟩ (.boolean false))
    let s' := s.bind 0 x (.boolean true)
    (s.AgreesExcept x s' ∧ expr.Avoids x ∧ s.BodiesAvoid x) ∧
    ((evaluate 10 expr 0).run.run s).1 = .ok (.boolean false) ∧
      ((evaluate 10 expr 0).run.run s').1 = .ok (.boolean false) ∧
      ((evaluate 10 expr 0).run.run s).2.AgreesExcept x ((evaluate 10 expr 0).run.run s').2 := by
  intro x expr s s'
  have agrees : s.AgreesExcept x s' := .rebind s 0 x (.boolean true)
  have bodies : s.BodiesAvoid x := by
    have empty : (Store.allocate {} none).2.BodiesAvoid x := by
      refine Store.BodiesAvoid.push (s := {}) (fun i y v _ bound => ?_) rfl fun y v bound => ?_
      · simp [Store.binding?] at bound
      · simp [Table.find?] at bound
    exact empty.bind (Value.IsAtom.boolean.bodyAvoids x)
  have unmentioned : expr.Avoids x := by
    refine .keyword (k := .conditional) (by decide) fun form member => ?_
    simp only [List.mem_cons, List.not_mem_nil, or_false] at member
    obtain rfl | rfl | rfl := member
    · exact .boolean
    · exact .symbol (by decide)
    · exact .boolean
  obtain ⟨same, left⟩ := unread_name_irrelevant agrees unmentioned bodies 10 0
  have outcome : ((evaluate 10 expr 0).run.run s).1 = .ok (.boolean false) := rfl
  exact ⟨⟨agrees, unmentioned, bodies⟩, outcome, same ▸ outcome, left⟩

end MiniLisp
