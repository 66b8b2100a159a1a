import MiniLisp.Proofs.Evaluation.Moments
import MiniLisp.Proofs.Session.Run

namespace MiniLisp

theorem Value.Readable.within {v : Value} (readable : v.Readable) (n : Nat) : v.Within n := by
  intro i captured
  induction captured with
  | frame | params | body => cases readable
  | item member _ ih =>
      cases readable with
      | list items => exact ih (items _ member)

namespace Session

/-- There is a moment of the session, in the middle of an evaluation or at its begin or end, with
this store and with these values held. -/
def Visits (s : Session) (u : Store) (held : List Value) : Prop :=
  ∃ t expr, s.Runs t ∧ expr.Readable ∧ MiniLisp.Visits expr root t.store u held

section

variable {s t : Session}

theorem Runs.visits (runs : s.Runs t) : s.Visits t.store [] :=
  ⟨t, .boolean true, runs, .boolean, .start⟩

section

variable (runs : s.Runs t)
include runs

theorem Runs.evaluate_passes {expr : Value} (readable : expr.Readable) :
    Passes s.Visits t.store (t.evaluate expr).2.store :=
  (evaluate_evaluates rfl).passes.mono fun inside => ⟨_, t, expr, runs, readable, inside⟩

theorem Runs.ignoring_passes (rest : List Token) :
    Passes s.Visits t.store (t.ignoring rest).store := by
  unfold ignoring
  split
  · exact .refl runs.visits
  · have noted : s.Runs (t.note (.ignoredTokens rest.length)) := runs.note (by simp)
    exact .step (e := .ignoredTokens rest.length) ⟨_, runs.visits⟩ ⟨_, noted.visits⟩

theorem Runs.evaluateSource_passes (source : String) :
    Passes s.Visits t.store (t.evaluateSource source).2.store := by
  cases read : Value.read (Token.tokenize source) with
  | error reason =>
      rw [evaluateSource_of_unreadable read]
      exact .refl runs.visits
  | ok result =>
      rw [evaluateSource_of_read read]
      have noted := runs.trans (t.ignoring_runs result.2)
      exact (runs.ignoring_passes result.2).trans (noted.evaluate_passes (readable_of_read read))

theorem Runs.evaluateForms_passes {forms : List Value} (readable : ∀ v ∈ forms, v.Readable) :
    Passes s.Visits t.store (t.evaluateForms forms).2.store := by
  induction forms generalizing t with
  | nil => exact .refl runs.visits
  | cons form rest ih =>
      have here := readable form List.mem_cons_self
      have first := runs.evaluate_passes here
      have after := runs.evaluate here
      unfold evaluateForms
      split
      · rename_i run
        rwa [run] at first
      · rename_i run
        rw [run] at first after
        exact first.trans (ih after fun v member => readable v (List.mem_cons_of_mem form member))

theorem Runs.evaluatePrelude_passes (text : String) :
    Passes s.Visits t.store (t.evaluatePrelude text).2.store := by
  have forms := runs.evaluateForms_passes (readable_of_prelude text)
  unfold evaluatePrelude
  split
  rename_i values failure last read
  rw [read] at forms
  split
  · rename_i run
    rwa [run] at forms
  · exact forms

theorem Runs.after_passes (inputs : List Input) :
    Passes s.Visits t.store (t.after inputs).store := by
  induction inputs generalizing t with
  | nil => exact .refl runs.visits
  | cons input rest ih =>
      cases input with
      | line source =>
          exact (runs.evaluateSource_passes source).trans
            (ih (runs.trans (t.evaluateSource_runs source)))
      | prelude text =>
          exact (runs.evaluatePrelude_passes text).trans
            (ih (runs.trans (t.evaluatePrelude_runs text)))

end

theorem Runs.grown (runs : s.Runs t) (rooted : s.store.RootedAt root) :
    Grown root s.store t.store := by
  induction runs with
  | refl => exact .refl rooted
  | note _ _ ih => exact ih.note _
  | @evaluate t expr _ readable ih =>
      have evaluated : Evaluates expr root t.store (t.evaluate expr).1 (t.evaluate expr).2.store :=
        evaluate_evaluates rfl
      exact ih.trans (evaluated.grown ih.rooted ih.rooted.present (readable.within _)).1

theorem Visits.grown {u : Store} {held : List Value} (visits : s.Visits u held)
    (rooted : s.store.RootedAt root) :
    Grown root s.store u ∧ ∀ v ∈ held, v.Within u.frames.size := by
  obtain ⟨t, expr, runs, readable, inside⟩ := visits
  have before := runs.grown rooted
  obtain ⟨after, within⟩ :=
    inside.grown before.rooted before.rooted.present (readable.within _)
  exact ⟨before.trans after, within⟩

end

theorem rootedAt_start (depth : Nat) : (start depth).store.RootedAt root :=
  Store.rootedAt_install

theorem isSome_builtin_start (depth : Nat) (b : Builtin) :
    ((start depth).store.binding? root b.symbol).isSome := by
  cases b <;> rfl

end Session

/-- What is bound stays bound, whatever events come after it. -/
theorem Store.isSome_binding?_replay {s : Store} {i : FrameId} {x : Symbol}
    (bound : (s.binding? i x).isSome) (events : List Event) :
    ((s.replay events).binding? i x).isSome := by
  refine List.foldlRecOn (motive := fun t : Store => (t.binding? i x).isSome) events redo bound ?_
  intro t before e _
  cases e with
  | bound => exact isSome_binding?_bind before
  | called j frame =>
      have pushed : (t.redo (.called j frame)).frames = t.frames.push frame := rfl
      exact isSome_binding?_push pushed before
  | loadingPrelude | ignoredTokens | depthExceeded => exact before

/-- The events of a session lead through all its stores. In each of them, in the middle of an
evaluation or after one, every frame but the root lies in an older one, all closures that are bound
or held were made in frames that are there, and every way outward ends in the root. What is bound in
the root once, as the builtins always are, is found from every frame at all later times. -/
theorem frames_form_tree (depth : Nat) (inputs : List Session.Input) :
    let s := Session.start depth
    let events := s.store.eventsSince (s.after inputs).store
    (s.after inputs).store = s.store.replay events ∧
    (∀ done, done <+: events → ∃ held, s.Visits (s.store.replay done) held) ∧
    (∀ u held, s.Visits u held →
      u.RootedAt Session.root ∧ (∀ v ∈ held, v.Within u.frames.size) ∧
      ∀ i < u.frames.size, u.WayOut i Session.root (u.chain i) ∧
        ∀ b : Builtin, (u.find? i b.symbol).isSome) ∧
    ∀ done more, done <+: more → more <+: events →
      ∀ x, ((s.store.replay done).binding? Session.root x).isSome →
        ∀ i < (s.store.replay more).frames.size, ((s.store.replay more).find? i x).isSome := by
  intro s events
  have start : s.store.RootedAt Session.root := Session.rootedAt_start depth
  have passes : Passes s.Visits s.store (s.after inputs).store :=
    Session.Runs.refl.after_passes inputs
  obtain ⟨all, last, visited⟩ := passes
  have same : events = all := by
    change s.store.eventsSince _ = all
    rw [last, Store.eventsSince_replay]
  rw [same]
  refine ⟨last, visited, fun u held visits => ?_, fun done more earlier inside x bound i present => ?_⟩
  · obtain ⟨grown, within⟩ := visits.grown start
    refine ⟨grown.rooted, within, fun i present => ⟨grown.rooted.chain_wayOut present, fun b => ?_⟩⟩
    exact grown.rooted.isSome_find? present
      (grown.bound Session.root b.symbol (Session.isSome_builtin_start depth b))
  · obtain ⟨held, visits⟩ := visited more inside
    obtain ⟨rest, rfl⟩ := earlier
    refine (visits.grown start).1.rooted.isSome_find? present ?_
    rw [Store.replay_append]
    exact Store.isSome_binding?_replay bound rest

/-- The middle of a call without arguments, and a name that a later line calls. -/
theorem frames_form_tree_call :
    let s := Session.start 20
    let inner := Value.list [.symbol ⟨"lambda"⟩, .list [], .boolean true]
    let closure := Value.closure (.list []) inner Session.root
    let u := (s.store.openCall Session.root (.list []) []).2
    let inputs := [Session.Input.line "(define f (lambda () f))", .line "((f) true)"]
    let events := s.store.eventsSince (s.after inputs).store
    let done := events.take 1
    (s.Visits u [closure] ∧ 1 < u.frames.size ∧ closure.Within u.frames.size ∧
      u.WayOut 1 Session.root [1, Session.root] ∧ (u.find? 1 ⟨"+"⟩).isSome) ∧
    (done <+: events ∧ ((s.store.replay done).binding? Session.root ⟨"f"⟩).isSome ∧
      1 < (s.store.replay events).frames.size ∧
      ((s.store.replay events).find? 1 ⟨"f"⟩).isSome) := by
  intro s inner closure u inputs events done
  let call := Value.list [.list [.symbol ⟨"lambda"⟩, .list [], inner]]
  have tokens : Token.tokenize "((lambda () (lambda () true)))" = [.opening, .opening,
      .atom "lambda", .opening, .closing, .opening, .atom "lambda", .opening, .closing,
      .atom "true", .closing, .closing, .closing] := by
    decide +kernel
  have read : Value.read (Token.tokenize "((lambda () (lambda () true)))") = .ok (call, []) := by
    rw [tokens]
    rfl
  have moment : s.Visits u [closure] :=
    ⟨s, call, .refl, readable_of_read read, .body rfl (.abstraction rfl) .nil rfl .start⟩
  obtain ⟨_, _, shape, lasting⟩ := frames_form_tree 20 inputs
  obtain ⟨_, held, frames⟩ := shape u [closure] moment
  obtain ⟨way, builtins⟩ := frames 1 (by decide)
  have early : done <+: events := List.take_prefix 1 events
  have bound : ((s.store.replay done).binding? Session.root ⟨"f"⟩).isSome := by decide +kernel
  have present : 1 < (s.store.replay events).frames.size := by decide +kernel
  refine ⟨⟨moment, by decide, held closure List.mem_cons_self, way, builtins .add⟩,
    early, bound, present, ?_⟩
  exact lasting done events early (List.prefix_refl events) ⟨"f"⟩ bound 1 present

end MiniLisp
