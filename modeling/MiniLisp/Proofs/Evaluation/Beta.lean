import MiniLisp.Proofs.Evaluation.Redex

namespace MiniLisp

/-- The call of an abstraction of one parameter on an argument. -/
def Value.redex (x : Symbol) (body c : Value) : Value :=
  .list [.list [.symbol ⟨Keyword.abstraction.name⟩, .list [.symbol x], body], c]

/-- The same value, a closure both times, or an error of the same kind. -/
inductive SameAnswer : Except Error Value → Except Error Value → Prop where
  | value (noClosure : ∀ params body frame, v ≠ .closure params body frame) :
      SameAnswer (.ok v) (.ok v)
  | closures : SameAnswer (.ok (.closure params body frame)) (.ok (.closure params' body' frame'))
  | failure (same : e.kind = e'.kind) : SameAnswer (.error e) (.error e')

theorem Error.kind_eq_depth {e : Error} : e.kind = .depth ↔ e = .tooDeep := by
  cases e <;> simp [kind]

theorem Value.IsLiteral.evaluate_succ {c : Value} (literal : c.IsLiteral) (depth : Nat)
    (frame : FrameId) : evaluate (depth + 1) c frame = pure c := by
  cases literal <;> rfl

theorem Value.redex_unexposed {x y : Symbol} {body c : Value} (literal : c.IsLiteral) :
    ¬ (Value.redex x body c).Exposes y := by
  intro exposed
  cases exposed with
  | operand keyword => contradiction
  | part _ member inside =>
      obtain rfl | same := List.mem_cons.mp member
      · cases inside <;> contradiction
      · cases List.mem_singleton.mp same
        cases literal <;> contradiction

section

variable {s t : Store} {frame called : FrameId} {x : Symbol} {body c : Value}

/-- Three steps lead to the body, and three more have to be left for the argument. -/
theorem evaluate_redex (literal : c.IsLiteral)
    (opened : s.openCall frame (.list [.symbol x]) [c] = (.ok called, t)) (depth : Nat) :
    (evaluate (depth + 6) (.redex x body c) frame).run.run s =
      (evaluate (depth + 3) body called).run.run t := by
  have function : (evaluate (depth + 5) (.list [.symbol ⟨Keyword.abstraction.name⟩,
      .list [.symbol x], body]) frame).run.run s =
        (.ok (.closure (.list [.symbol x]) body frame), s) := by
    rw [evaluate_form (k := .abstraction) rfl]
    rfl
  have argument : (evaluateAll (depth + 3) [c] frame).run.run s = (.ok [c], s) := by
    unfold evaluateAll
    rw [List.mapM_cons, literal.evaluate_succ]
    rfl
  have opening : (Eval.openCall frame (.list [.symbol x]) [c]).run.run s = (.ok called, t) := opened
  unfold Value.redex
  rw [evaluate_application rfl, Eval.run_bind_of_ok function]
  unfold apply applyClosure
  have arity : (Value.list [.symbol x]).checkArity ([c].length : Nat) = .ok () := rfl
  simp only [arity]
  rw [Eval.run_bind_of_ok argument, Eval.run_bind_of_ok opening]

end

namespace Redex

variable {r : Redex} {t : Store} {i : FrameId}

theorem absent {i : Nat} (new : r.call ≤ i) : r.store.frames[i]? = none :=
  Array.getElem?_eq_none new

theorem image_absent {i : Nat} (new : r.call < i) : r.store.frames[r.image i]? = none := by
  have image := image_new new
  exact absent (by omega)

theorem outer?_image {i : Nat} (other : i ≠ r.call) :
    r.store.outer? (r.image i) = (r.store.outer? i).map r.image := by
  obtain old | new := Nat.lt_or_gt_of_ne other
  · rw [image_old old]
    cases link : r.store.outer? i with
    | none => rfl
    | some o =>
        have older : o < r.call := Nat.lt_trans (r.formed.ordered i o link) old
        rw [Option.map_some, image_old older]
  · simp [Store.outer?, image_absent new, absent (Nat.le_of_lt new)]

theorem Values.of_within {v : Value} (w : r.Sight) (within : v.Within r.call) : Values w v v := by
  cases v with
  | closure params body i =>
      have old : i < r.call := (Value.within_closure.mp within).1
      have unseen : ¬ w.sees i := fun seen => Nat.not_le_of_lt old (w.inner seen)
      have same : Values w (.closure params body i) (.closure params body (r.image i)) :=
        .unseen (Nat.lt_trans old w.called) unseen
      rwa [image_old old] at same
  | number | boolean | symbol | list | builtin | foreign =>
      exact .same fun _ _ _ => Value.noConfusion

theorem binding?_image (w : r.Sight) {i : Nat} (y : Symbol) (other : i ≠ r.call) :
    Option.Rel (Values w) (r.store.binding? i y) (r.store.binding? (r.image i) y) := by
  obtain old | new := Nat.lt_or_gt_of_ne other
  · rw [image_old old]
    cases bound : r.store.binding? i y with
    | none => exact .none
    | some v => exact .some (Values.of_within w (r.formed.binding bound))
  · simp only [Store.binding?, image_absent new, absent (Nat.le_of_lt new)]
    exact .none

variable (r) in
/-- At the start of the body nothing but the frame of the call is new. -/
def start : r.Sight where
  size := r.call + 1
  sees i := i = r.call
  called := Nat.lt_succ_self _
  sees_call := rfl
  inner seen := Nat.le_of_eq seen.symm

theorem start_stores (opened : r.store.openCall r.frame (.list [.symbol r.name]) [r.literal] =
    (.ok i, t)) : Stores r.start t r.store := by
  obtain ⟨formals, frame, named, _, content, _, frames, _⟩ := Store.openCall_eq_ok opened
  have listed : formals = [r.name] := (Option.some.inj named).symm
  have link : frame.outer = some r.frame := by rw [content]
  have bound : ∀ y, frame.bindings.find? y = if y = r.name then some r.literal else none := by
    intro y
    rw [content, listed]
    exact Table.find?_insert {} r.name y r.literal
  change t.frames = r.store.frames.push frame at frames
  have size : r.store.frames.size = r.call := rfl
  constructor
  case size => rw [frames, Array.size_push]; rfl
  case size' => rfl
  case ordered =>
    refine r.formed.ordered.push frames fun o linked => ?_
    cases link.symm.trans linked
    exact r.present
  case ordered' => exact r.formed.ordered
  case outerCall => rw [Store.outer?_push frames, size, if_pos rfl, link]
  case bindingCall =>
    intro y
    rw [Store.binding?_push frames, size, if_pos rfl, bound]
  case outer =>
    intro i other
    rw [Store.outer?_push frames, size, if_neg other, outer?_image other]
  case binding =>
    intro i y other
    rw [Store.binding?_push frames, size, if_neg other]
    exact binding?_image r.start y other
  case seen => exact fun i _ other seen => absurd seen other
  case unseen =>
    intro i inside unseen
    have other : i ≠ r.call := unseen
    refine .inr fun o linked seen => ?_
    have old : i < r.call := Nat.lt_of_le_of_ne (Nat.le_of_lt_succ inside) other
    rw [Store.outer?_push frames, size, if_neg other] at linked
    exact Nat.lt_asymm old (seen ▸ r.formed.ordered i o linked)
  case kept => exact fun _ _ => rfl

/-- The body of the call and the substituted body come to the same at every depth. -/
theorem agrees (opened : r.store.openCall r.frame (.list [.symbol r.name]) [r.literal] =
    (.ok i, t)) {body : Value} (undefined : ¬ body.Defines r.name)
    (unexposed : ∀ y, ¬ body.Exposes y) (depth : Nat) :
    let run := (evaluate depth body i).run.run t
    let run' := (evaluate depth (body.subst r.name r.literal) r.frame).run.run r.store
    ∃ w : r.Sight, Stores w run.2 run'.2 ∧ (relations r).Outcomes (Values w) run.1 run'.1 := by
  have code : Code r.start body r.call (body.subst r.name r.literal) (r.image r.call) :=
    .seen (Nat.lt_succ_self _) rfl undefined fun _ => unexposed
  rw [image_call] at code
  have called : i = r.call := Store.openCall_fresh opened
  subst called
  obtain ⟨w, _, stores, outcomes⟩ := (simulation r).evaluate code (start_stores opened) depth
  exact ⟨w, stores, outcomes⟩

end Redex

theorem Redex.answers {r : Redex} {w : r.Sight} {outcome outcome' : Except Error Value}
    (same : (relations r).Outcomes (Values w) outcome outcome') : SameAnswer outcome outcome' := by
  cases same with
  | error same => exact .failure same.1
  | ok same =>
      cases same with
      | same noClosure => exact .value noClosure
      | unseen | seen => exact .closures

theorem SameAnswer.tooDeep_iff {outcome outcome' : Except Error Value}
    (same : SameAnswer outcome outcome') :
    outcome = .error .tooDeep ↔ outcome' = .error .tooDeep := by
  cases same with
  | value | closures => simp
  | failure same =>
      simp only [Except.error.injEq]
      rw [← Error.kind_eq_depth, ← Error.kind_eq_depth, same]

/-- To call an abstraction of one parameter on a literal comes to the same as to evaluate its body
with the literal in the place of the parameter, if neither run is cut off: to the same value, to a
closure in both cases, or to an error of the same kind. The call needs three steps more, and neither
changes a frame that was there. -/
theorem call_agrees_with_substitution {s : Store} {frame : FrameId} {x : Symbol} {body c : Value}
    (formed : s.WellFormed) (present : frame < s.frames.size) (literal : c.IsLiteral)
    (unexposed : ∀ y, ¬ body.Exposes y) (undefined : ¬ body.Defines x) :
    let call depth := (evaluate depth (.redex x body c) frame).run.run s
    let substituted depth := (evaluate depth (body.subst x c) frame).run.run s
    (∀ depth depth', (call depth).1 ≠ .error .tooDeep →
      (substituted depth').1 ≠ .error .tooDeep →
        SameAnswer (call depth).1 (substituted depth').1) ∧
    (∀ depth, (call (depth + 6)).1 = .error .tooDeep ↔
      (substituted (depth + 3)).1 = .error .tooDeep) ∧
    ∀ depth i, i < s.frames.size →
      (call depth).2.frames[i]? = s.frames[i]? ∧
        (substituted depth).2.frames[i]? = s.frames[i]? := by
  intro call substituted
  let r : Redex := ⟨x, c, s, frame, literal, formed, present⟩
  have named : (Value.list [.symbol x]).formals? = some [x] := rfl
  have arity : [x].length = [c].length := rfl
  obtain ⟨called, t, opened⟩ := s.openCall_exists frame named arity
  have agrees := r.agrees opened undefined unexposed
  have same : ∀ depth, SameAnswer (call (depth + 6)).1 (substituted (depth + 3)).1 := by
    intro depth
    obtain ⟨w, _, outcomes⟩ := agrees (depth + 3)
    have answers := Redex.answers outcomes
    rwa [← evaluate_redex literal opened depth] at answers
  refine ⟨?_, fun depth => (same depth).tooDeep_iff, ?_⟩
  · intro depth depth' ended ended'
    have answers := same (depth + depth')
    have left : call (depth + depth' + 6) = call depth :=
      evaluate_of_ne_tooDeep ended (by omega)
    have right : substituted (depth + depth' + 3) = substituted depth' :=
      evaluate_of_ne_tooDeep ended' (by omega)
    rwa [left, right] at answers
  · intro depth i old
    have evaluated : Evaluates _ frame s (call depth).1 (call depth).2 := evaluate_evaluates rfl
    obtain ⟨w, stores, _⟩ := agrees depth
    exact ⟨evaluated.frame_eq_of_unexposed (fun y => Value.redex_unexposed literal) present old,
      stores.kept i old⟩

/-- The parameter is looked up from inside another abstraction, which the literal is put into. -/
theorem call_agrees_with_substitution_inner :
    let x : Symbol := ⟨"x"⟩
    let inner : Value := .list [.symbol ⟨"lambda"⟩, .list [.symbol ⟨"y"⟩], .symbol x]
    let body : Value := .list [inner, .symbol x]
    let s := (Store.allocate {} none).2
    let call depth := (evaluate depth (.redex x body (.boolean true)) 0).run.run s
    let substituted depth := (evaluate depth (body.subst x (.boolean true)) 0).run.run s
    (s.WellFormed ∧ 0 < s.frames.size ∧ (Value.boolean true).IsLiteral ∧
      (∀ y, ¬ body.Exposes y) ∧ ¬ body.Defines x) ∧
    (call 12).1 = .ok (.boolean true) ∧ (substituted 10).1 = .ok (.boolean true) ∧
      SameAnswer (call 12).1 (substituted 10).1 ∧
      (call 12).2.frames[0]? = s.frames[0]? := by
  intro x inner body s call substituted
  have formed : s.WellFormed := Store.WellFormed.empty.allocate (by simp)
  have present : 0 < s.frames.size := by decide
  have unexposed : ∀ y, ¬ body.Exposes y := by
    intro y exposed
    simp only [body, inner] at exposed
    cases exposed with
    | operand keyword => contradiction
    | part _ member inside =>
        simp only [List.mem_cons, List.not_mem_nil, or_false] at member
        obtain rfl | rfl := member
        · cases inside <;> contradiction
        · contradiction
  have undefined : ¬ body.Defines x := by
    intro defines
    simp only [body, inner] at defines
    cases defines with
    | item member inside =>
        simp only [List.mem_cons, List.not_mem_nil, or_false] at member
        obtain rfl | rfl := member
        · cases inside with
          | item member inside =>
              simp only [List.mem_cons, List.not_mem_nil, or_false] at member
              obtain rfl | rfl | rfl := member
              · contradiction
              · cases inside with
                | item member inside =>
                    cases List.mem_singleton.mp member
                    contradiction
              · contradiction
        · contradiction
  obtain ⟨same, _, kept⟩ :=
    call_agrees_with_substitution formed present .boolean unexposed undefined
  have called : (call 12).1 = .ok (.boolean true) := rfl
  have replaced : (substituted 10).1 = .ok (.boolean true) := rfl
  have ended : (call 12).1 ≠ .error .tooDeep := by simp [called]
  have ended' : (substituted 10).1 ≠ .error .tooDeep := by simp [replaced]
  exact ⟨⟨formed, present, .boolean, unexposed, undefined⟩, called, replaced,
    same 12 10 ended ended', (kept 12 0 present).1⟩

end MiniLisp
