import MiniLisp.Proofs.Evaluation.Rules

/-! # What evaluation writes

Evaluation changes a store by a sequence of bindings and of added frames. `Writes allowed s t` says
that such a sequence leads from `s` to `t` and binds only where `allowed` permits; notes, which
change nothing but the history, may stand anywhere in it. What evaluation in a frame permits itself
is its `scope`: the symbols that the evaluated value exposes definitions of, in the frame itself,
and everything in the frames that are added on the way. The bindings after it can be read off the
events that it adds to the history.
-/

namespace MiniLisp

/-- `expr.Exposes x`: a definition of `x` stands in `expr` outside every abstraction. -/
inductive Value.Exposes : Value → Symbol → Prop where
  | target (keyword : head.keyword? = some .definition) :
      Exposes (.list [head, .symbol x, form]) x
  | value (keyword : head.keyword? = some .definition) (inside : Exposes form x) :
      Exposes (.list [head, target, form]) x
  | operand (keyword : head.keyword? = some .conditional) (member : form ∈ forms)
      (inside : Exposes form x) : Exposes (.list (head :: forms)) x
  | part (plain : head.keyword? = none) (member : form ∈ head :: forms)
      (inside : Exposes form x) : Exposes (.list (head :: forms)) x

/-- Some value of the list exposes a definition of the symbol. -/
def ExposesAny (forms : List Value) (x : Symbol) : Prop :=
  ∃ form ∈ forms, form.Exposes x

inductive Writes (allowed : FrameId → Symbol → Prop) (s : Store) : Store → Prop where
  | refl : Writes allowed s s
  | bind (before : Writes allowed s t) (within : i < t.frames.size) (permitted : allowed i x) :
      Writes allowed s (t.bind i x v)
  | call (before : Writes allowed s t) (opened : t.openCall outer params args = (.ok i, u)) :
      Writes allowed s u
  | note (before : Writes allowed s t) (noBinding : ∀ i x v, e ≠ .bound i x v) :
      Writes allowed s (t.note e)

/-- The events of `t` that came after `s`. -/
def Store.eventsSince (s t : Store) : List Event :=
  t.history.toList.drop s.history.size

theorem Store.eventsSince_eq {s t : Store} {events : List Event}
    (appended : t.history.toList = s.history.toList ++ events) : s.eventsSince t = events := by
  rw [eventsSince, appended, List.drop_left' Array.length_toList]

/-- The value that an event binds to the symbol in the frame. -/
def Event.value? (frame : FrameId) (x : Symbol) : Event → Option Value
  | .bound i y v => if i = frame ∧ y = x then some v else none
  | _ => none

/-- The value that the last of the events that bind the symbol in the frame binds to it. -/
def lastBound (frame : FrameId) (x : Symbol) (events : List Event) : Option Value :=
  events.reverse.findSome? (·.value? frame x)

theorem lastBound_concat (frame : FrameId) (x : Symbol) (events : List Event) (e : Event) :
    lastBound frame x (events ++ [e]) = (e.value? frame x).or (lastBound frame x events) := by
  simp only [lastBound, List.reverse_append, List.reverse_singleton, List.singleton_append,
    List.findSome?_cons]
  cases e.value? frame x <;> rfl

theorem lastBound_eq_some {frame : FrameId} {x : Symbol} {v : Value} {events : List Event}
    (found : lastBound frame x events = some v) : .bound frame x v ∈ events := by
  obtain ⟨e, member, value⟩ := List.exists_of_findSome?_eq_some found
  cases e with
  | bound i y w =>
      simp only [Event.value?] at value
      split at value
      · rename_i same
        obtain ⟨rfl, rfl⟩ := same
        cases value
        exact List.mem_reverse.mp member
      · contradiction
  | called | loadingPrelude | ignoredTokens | depthExceeded => contradiction

namespace Writes

variable {allowed wider : FrameId → Symbol → Prop} {s t u : Store} {j : FrameId} {x : Symbol}
variable {v : Value}

theorem mono (writes : Writes allowed s t) (widened : ∀ i x, allowed i x → wider i x) :
    Writes wider s t := by
  induction writes with
  | refl => exact .refl
  | bind _ within permitted ih => exact ih.bind within (widened _ _ permitted)
  | call _ opened ih => exact ih.call opened
  | note _ noBinding ih => exact ih.note noBinding

theorem trans (first : Writes allowed s t) (second : Writes allowed t u) :
    Writes allowed s u := by
  induction second with
  | refl => exact first
  | bind _ within permitted ih => exact ih.bind within permitted
  | call _ opened ih => exact ih.call opened
  | note _ noBinding ih => exact ih.note noBinding

theorem size_le (writes : Writes allowed s t) : s.frames.size ≤ t.frames.size := by
  induction writes with
  | refl => exact Nat.le_refl _
  | bind _ _ _ ih => rwa [Store.size_bind]
  | call _ opened ih =>
      rw [Store.size_openCall opened]
      omega
  | note _ _ ih => exact ih

theorem frame_eq (writes : Writes allowed s t) (old : j < s.frames.size)
    (closed : ∀ x, ¬ allowed j x) : t.frames[j]? = s.frames[j]? := by
  induction writes with
  | refl => rfl
  | @bind t i x _ _ _ permitted ih =>
      have different : i ≠ j := by
        rintro rfl
        exact closed x permitted
      rw [Store.frame_bind_other different, ih]
  | call before opened ih =>
      have present := Nat.lt_of_lt_of_le old before.size_le
      rw [Store.frame_openCall opened present, ih]
  | note _ _ ih => exact ih

theorem outer?_eq (writes : Writes allowed s t) (old : j < s.frames.size) :
    t.outer? j = s.outer? j := by
  induction writes with
  | refl => rfl
  | bind _ _ _ ih => rw [Store.outer?_bind, ih]
  | call before opened ih =>
      have present := Nat.lt_of_lt_of_le old before.size_le
      rw [Store.outer?_openCall opened present, ih]
  | note _ _ ih => exact ih

/-- The events that are added to the history, and the bindings of the old frames after them. -/
theorem history (writes : Writes allowed s t) :
    ∃ events, t.history.toList = s.history.toList ++ events ∧
      (∀ i x v, .bound i x v ∈ events → allowed i x) ∧
      ∀ j x, j < s.frames.size →
        t.binding? j x = (lastBound j x events).or (s.binding? j x) := by
  induction writes with
  | refl => exact ⟨[], by simp, by simp, by simp [lastBound]⟩
  | @bind t i x v before within permitted ih =>
      obtain ⟨events, appended, sound, bindings⟩ := ih
      refine ⟨events ++ [.bound i x v], by simp [appended], ?_, ?_⟩
      · intro j y w member
        rcases List.mem_append.mp member with member | member
        · exact sound j y w member
        · cases List.mem_singleton.mp member
          exact permitted
      · intro j y old
        rw [Store.binding?_bind within, lastBound_concat, bindings j y old]
        by_cases here : i = j ∧ x = y <;> simp [Event.value?, here]
  | @call t _ _ _ u i before opened ih =>
      obtain ⟨events, appended, sound, bindings⟩ := ih
      obtain ⟨frame, noted⟩ := Store.history_openCall opened
      refine ⟨events ++ [.called i frame], by simp [noted, appended], ?_, ?_⟩
      · intro j y w member
        rcases List.mem_append.mp member with member | member
        · exact sound j y w member
        · cases List.mem_singleton.mp member
      · intro j y old
        have present := Nat.lt_of_lt_of_le old before.size_le
        rw [Store.binding?_openCall opened present, lastBound_concat, bindings j y old]
        rfl
  | @note t e before noBinding ih =>
      obtain ⟨events, appended, sound, bindings⟩ := ih
      refine ⟨events ++ [e], by simp [appended], ?_, ?_⟩
      · intro j y w member
        rcases List.mem_append.mp member with member | member
        · exact sound j y w member
        · exact absurd (List.mem_singleton.mp member).symm (noBinding j y w)
      · intro j y old
        have silent : e.value? j y = none := by
          cases e with
          | bound i x v => exact absurd rfl (noBinding i x v)
          | called | loadingPrelude | ignoredTokens | depthExceeded => rfl
        rw [lastBound_concat, silent]
        exact bindings j y old

theorem history_prefix (writes : Writes allowed s t) :
    s.history.toList <+: t.history.toList := by
  obtain ⟨events, appended, _⟩ := writes.history
  exact ⟨events, appended.symm⟩

theorem allowed_of_bound (writes : Writes allowed s t)
    (bound : .bound j x v ∈ s.eventsSince t) : allowed j x := by
  obtain ⟨events, appended, sound, _⟩ := writes.history
  rw [Store.eventsSince_eq appended] at bound
  exact sound j x v bound

theorem binding?_eq_lastBound (writes : Writes allowed s t) (old : j < s.frames.size) (x : Symbol) :
    t.binding? j x = (lastBound j x (s.eventsSince t)).or (s.binding? j x) := by
  obtain ⟨events, appended, _, bindings⟩ := writes.history
  rw [Store.eventsSince_eq appended, bindings j x old]

theorem binding?_eq (writes : Writes allowed s t) (old : j < s.frames.size)
    (forbidden : ¬ allowed j x) : t.binding? j x = s.binding? j x := by
  rw [writes.binding?_eq_lastBound old]
  cases last : lastBound j x (s.eventsSince t) with
  | none => rfl
  | some v => exact absurd (writes.allowed_of_bound (lastBound_eq_some last)) forbidden

theorem isSome_binding? (writes : Writes allowed s t) (bound : (s.binding? j x).isSome) :
    (t.binding? j x).isSome := by
  rw [writes.binding?_eq_lastBound (Store.present_of_isSome_binding? bound), Option.isSome_or,
    bound]
  exact Bool.or_true _

/-- The bindings of an old frame are the same after some writes exactly when the last value that
was bound to each symbol is the value that it had. -/
theorem bindings_eq_iff (writes : Writes allowed s t) (old : j < s.frames.size) :
    (∀ x, t.binding? j x = s.binding? j x) ↔
      ∀ x v, lastBound j x (s.eventsSince t) = some v → s.binding? j x = some v := by
  constructor
  · intro same x v last
    rw [← same x, writes.binding?_eq_lastBound old, last]
    rfl
  · intro kept x
    rw [writes.binding?_eq_lastBound old]
    cases last : lastBound j x (s.eventsSince t) with
    | none => rfl
    | some v => exact (kept x v last).symm

end Writes

/-- Where evaluation in a frame may bind: the symbols named, in the frame itself, and every symbol
in a frame that is yet to be added. -/
def scope (s : Store) (frame : FrameId) (named : Symbol → Prop) (i : FrameId) (x : Symbol) : Prop :=
  i = frame ∧ named x ∨ s.frames.size ≤ i

section

variable {s t u : Store} {frame : FrameId} {named first second : Symbol → Prop}

theorem scope_mono (widened : ∀ x, first x → second x) (later : s.frames.size ≤ t.frames.size)
    (i : FrameId) (x : Symbol) (within : scope t frame first i x) : scope s frame second i x := by
  obtain ⟨here, exposed⟩ | fresh := within
  · exact .inl ⟨here, widened x exposed⟩
  · exact .inr (Nat.le_trans later fresh)

theorem Writes.within (writes : Writes (scope s frame first) s t)
    (widened : ∀ x, first x → second x) : Writes (scope s frame second) s t :=
  writes.mono (scope_mono widened (Nat.le_refl _))

theorem Writes.then (before : Writes (scope s frame first) s t)
    (after : Writes (scope t frame second) t u) (left : ∀ x, first x → named x)
    (right : ∀ x, second x → named x) : Writes (scope s frame named) s u :=
  (before.within left).trans (after.mono (scope_mono right before.size_le))

theorem Writes.arguments {head : Value} {forms : List Value} (plain : head.keyword? = none)
    (first : Writes (scope s frame head.Exposes) s t)
    (rest : Writes (scope t frame (ExposesAny forms)) t u) :
    Writes (scope s frame (Value.list (head :: forms)).Exposes) s u := by
  refine first.then rest (fun _ => .part plain (by simp)) ?_
  rintro x ⟨form, member, inside⟩
  exact .part plain (by simp [member]) inside

/-- What a call writes it writes into frames that are its own. -/
theorem Writes.thenCall {called : FrameId} {w z : Store} {outer : FrameId} {params : Value}
    {args : List Value} (before : Writes (scope s frame named) s u)
    (opened : u.openCall outer params args = (.ok called, w))
    (body : Writes (scope w called first) w z) : Writes (scope s frame named) s z := by
  have opening := before.call opened
  -- The frame of the call is none of the frames of `s`, so all of it is open to the body.
  refine opening.trans (body.mono ?_)
  rintro i x (⟨rfl, _⟩ | fresh)
  · have grown := before.size_le
    exact .inr (Store.openCall_fresh opened ▸ grown)
  · exact .inr (Nat.le_trans opening.size_le fresh)

end

mutual

theorem Evaluates.writes : Evaluates expr frame s outcome t → frame < s.frames.size →
    Writes (scope s frame expr.Exposes) s t
  | .refused _, _ | .symbol, _ | .number, _ | .boolean, _ | .builtin, _ | .abstraction _, _ => .refl
  | .testFails keyword tested, present =>
      (tested.writes present).within fun _ => .operand keyword (by simp)
  | .notBoolean keyword tested _ _, present =>
      (tested.writes present).within fun _ => .operand keyword (by simp)
  | .branch keyword tested chosen, present => by
      have test := tested.writes present
      have branch := chosen.writes (Nat.lt_of_lt_of_le present test.size_le)
      refine test.then branch (fun _ => .operand keyword (by simp)) fun _ => ?_
      exact .operand keyword (by split <;> simp)
  | .valueFails keyword evaluated, present =>
      (evaluated.writes present).within fun _ => .value keyword
  | .definition keyword evaluated, present => by
      have value := evaluated.writes present
      have bound := Nat.lt_of_lt_of_le present value.size_le
      exact (value.within fun _ => .value keyword).bind bound (.inl ⟨rfl, .target keyword⟩)
  | .headFails plain first, present =>
      (first.writes present).within fun _ => .part plain (by simp)
  | .inapplicable plain first _, present =>
      (first.writes present).within fun _ => .part plain (by simp)
  | .argumentsFail plain first arguments, present
  | .primitive plain first arguments _, present => by
      have head := first.writes present
      exact head.arguments plain (arguments.writes (Nat.lt_of_lt_of_le present head.size_le))
  | .call plain first arguments opened result, present => by
      have head := first.writes present
      have args := arguments.writes (Nat.lt_of_lt_of_le present head.size_le)
      have inside : _ < _ := Store.openCall_present opened
      exact (head.arguments plain args).thenCall opened (result.writes inside)

theorem EvaluatesAll.writes : EvaluatesAll forms frame s outcome t → frame < s.frames.size →
    Writes (scope s frame (ExposesAny forms)) s t
  | .tooDeep, _ | .nil, _ => .refl
  | .firstFails first, present =>
      (first.writes present).within fun _ inside => ⟨_, by simp, inside⟩
  | .cons first rest, present => by
      have one := first.writes present
      have others := rest.writes (Nat.lt_of_lt_of_le present one.size_le)
      refine one.then others (fun _ inside => ⟨_, by simp, inside⟩) ?_
      rintro x ⟨form, member, inside⟩
      exact ⟨form, by simp [member], inside⟩

end

theorem Evaluates.frame_eq_of_unexposed {expr : Value} {frame i : FrameId} {s t : Store}
    {outcome : Except Error Value} (evaluated : Evaluates expr frame s outcome t)
    (unexposed : ∀ x, ¬ expr.Exposes x) (present : frame < s.frames.size)
    (old : i < s.frames.size) : t.frames[i]? = s.frames[i]? := by
  apply (evaluated.writes present).frame_eq old
  intro x inside
  obtain ⟨_, exposed⟩ | fresh := inside
  · exact unexposed x exposed
  · exact Nat.not_lt_of_le fresh old

end MiniLisp
