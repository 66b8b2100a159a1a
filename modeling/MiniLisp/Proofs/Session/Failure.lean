import MiniLisp.Proofs.Reading.Source
import MiniLisp.Proofs.Session.Run

/-! # What a failing line leaves behind

A line that fails keeps the definitions that were completed before the failure. The root is as it
was before exactly when none of them, the last one of each name, gave a name another value. That is
so whenever nothing that can fail is evaluated after a definition: when the definitions that the
line exposes are the last thing that it does.
-/

namespace MiniLisp

/-- Every definition that the value exposes comes after all that can fail. -/
inductive Value.DefinesLast : Value → Prop where
  | nowhere (unexposed : ∀ x, ¬ Exposes expr x) : DefinesLast expr
  | definition (keyword : head.keyword? = some .definition) (value : DefinesLast form) :
      DefinesLast (.list [head, target, form])
  | conditional (keyword : head.keyword? = some .conditional)
      (unexposed : ∀ x, ¬ test.Exposes x) (yes : DefinesLast first) (no : DefinesLast second) :
      DefinesLast (.list [head, test, first, second])

section

variable {s t : Store} {frame : FrameId} {e : Error} {head : Value}

theorem Evaluates.definition_error {target form : Value}
    (keyword : head.keyword? = some .definition)
    (failed : Evaluates (.list [head, target, form]) frame s (.error e) t) :
    t = s ∨ Evaluates form frame s (.error e) t := by
  cases failed with
  | refused => exact .inl rfl
  | valueFails _ evaluated => exact .inr evaluated
  | headFails plain | inapplicable plain | argumentsFail plain | primitive plain | call plain =>
      rw [keyword] at plain
      contradiction

theorem Evaluates.conditional_error {test yes no : Value}
    (keyword : head.keyword? = some .conditional)
    (failed : Evaluates (.list [head, test, yes, no]) frame s (.error e) t) :
    t = s ∨ (∃ outcome, Evaluates test frame s outcome t) ∨
      ∃ b u, Evaluates test frame s (.ok (.boolean b)) u ∧
        Evaluates (if b then yes else no) frame u (.error e) t := by
  cases failed with
  | refused => exact .inl rfl
  | testFails _ tested => exact .inr (.inl ⟨_, tested⟩)
  | notBoolean _ tested => exact .inr (.inl ⟨_, tested⟩)
  | branch _ tested chosen => exact .inr (.inr ⟨_, _, tested, chosen⟩)
  | headFails plain | inapplicable plain | argumentsFail plain | primitive plain | call plain =>
      rw [keyword] at plain
      contradiction

/-- Such a value changes no frame when it fails. -/
theorem Value.DefinesLast.frame_eq {expr : Value} {i : FrameId} (last : expr.DefinesLast)
    (failed : Evaluates expr frame s (.error e) t) (present : frame < s.frames.size)
    (old : i < s.frames.size) : t.frames[i]? = s.frames[i]? := by
  induction last generalizing s with
  | nowhere unexposed => exact failed.frame_eq_of_unexposed unexposed present old
  | definition keyword _ ih =>
      obtain rfl | failed := failed.definition_error keyword
      · rfl
      · exact ih failed present old
  | conditional keyword unexposed _ _ yesIH noIH =>
      obtain rfl | ⟨_, tested⟩ | ⟨b, u, tested, failed⟩ := failed.conditional_error keyword
      · rfl
      · exact tested.frame_eq_of_unexposed unexposed present old
      · have grown := (tested.writes present).size_le
        have present' := Nat.lt_of_lt_of_le present grown
        have old' := Nat.lt_of_lt_of_le old grown
        rw [← tested.frame_eq_of_unexposed unexposed present old]
        cases b with
        | true => exact yesIH failed present' old'
        | false => exact noIH failed present' old'

end

/-- A failing line leaves the root with the bindings it had exactly when no definition that was
completed before the failure, the last one of its name, gave the name another value. -/
theorem failing_line_keeps_root_iff (depth : Nat) (inputs : List Session.Input) (source : String)
    (e : Error) (t : Session)
    (failed : ((Session.start depth).after inputs).evaluateSource source = (.error e, t)) :
    let s := (Session.start depth).after inputs
    ((∀ x, t.store.binding? Session.root x = s.store.binding? Session.root x) ↔
      ∀ x v, lastBound Session.root x (s.store.eventsSince t.store) = some v →
        s.store.binding? Session.root x = some v) ∧
    (∀ reason, Value.read (Token.tokenize source) = .error reason → t = s) ∧
    ∀ expr rest, Value.read (Token.tokenize source) = .ok (expr, rest) →
      (∀ x v, .bound Session.root x v ∈ s.store.eventsSince t.store → expr.Exposes x) ∧
      (expr.DefinesLast → t.store.frames[Session.root]? = s.store.frames[Session.root]?) := by
  intro s
  have rooted := Session.hasRoot_after depth inputs
  have leads := (s.evaluateSource_runs source).leads rooted
  rw [failed] at leads
  refine ⟨leads.bindings_eq_iff rooted, ?_, fun expr rest read => ⟨?_, ?_⟩⟩
  · intro reason unread
    rw [Session.evaluateSource_of_unreadable unread] at failed
    cases failed
    rfl
  · intro x v bound
    have writes := Session.evaluateSource_writes rooted read
    rw [failed] at writes
    obtain ⟨_, exposed⟩ | fresh := writes.allowed_of_bound bound
    · exact exposed
    · exact absurd rooted (Nat.not_lt_of_le fresh)
  · intro last
    have frames := s.frames_ignoring rest
    have rooted' : Session.root < (s.ignoring rest).store.frames.size := frames ▸ rooted
    rw [Session.evaluateSource_of_read read] at failed
    rw [← frames]
    exact last.frame_eq (Session.evaluate_evaluates failed) rooted' rooted'

/-- A line of one definition, which fails before it binds anything. -/
theorem failing_line_keeps_root_definition :
    ∃ e t,
      ((Session.start 20).after []).evaluateSource "(define x y)" = (.error e, t) ∧
      Value.read (Token.tokenize "(define x y)") =
        .ok (.list [.symbol ⟨"define"⟩, .symbol ⟨"x"⟩, .symbol ⟨"y"⟩], []) ∧
      (Value.list [.symbol ⟨"define"⟩, .symbol ⟨"x"⟩, .symbol ⟨"y"⟩]).DefinesLast ∧
      t.store.frames[Session.root]? =
        ((Session.start 20).after []).store.frames[Session.root]? := by
  have failing : (((Session.start 20).after []).evaluateSource "(define x y)").1.isOk = false := by
    decide +kernel
  have tokens : Token.tokenize "(define x y)" =
      [.opening, .atom "define", .atom "x", .atom "y", .closing] := by
    decide +kernel
  have read : Value.read (Token.tokenize "(define x y)") =
      .ok (.list [.symbol ⟨"define"⟩, .symbol ⟨"x"⟩, .symbol ⟨"y"⟩], []) := by
    rw [tokens]
    rw [← Value.ofAtom_eq_symbol (by decide : "define" ≠ "true") (by decide) (by decide +kernel)]
    rw [← Value.ofAtom_eq_symbol (by decide : "x" ≠ "true") (by decide) (by decide +kernel)]
    rw [← Value.ofAtom_eq_symbol (by decide : "y" ≠ "true") (by decide) (by decide +kernel)]
    rfl
  have last : (Value.list [.symbol ⟨"define"⟩, .symbol ⟨"x"⟩, .symbol ⟨"y"⟩]).DefinesLast := by
    refine .definition (by decide) (.nowhere fun x exposed => ?_)
    cases exposed
  rcases run : ((Session.start 20).after []).evaluateSource "(define x y)" with ⟨outcome, t⟩
  rw [run] at failing
  obtain ⟨e, rfl⟩ := exists_error_of_isOk failing
  obtain ⟨_, _, kept⟩ := failing_line_keeps_root_iff 20 [] "(define x y)" e t run
  exact ⟨e, t, rfl, read, last, (kept _ [] read).2 last⟩

/-- A line whose definition comes before the argument that fails. -/
theorem failing_line_binds :
    ∃ e t, (Session.start 20).evaluateSource "(+ (define x true) true)" = (.error e, t) ∧
      e.kind = .type ∧
      (∃ v, t.store.binding? Session.root ⟨"x"⟩ = some v) ∧
      (Session.start 20).store.binding? Session.root ⟨"x"⟩ = none := by
  have refused : (match ((Session.start 20).evaluateSource "(+ (define x true) true)").1 with
      | .error e => some e.kind
      | .ok _ => none) = some .type := by
    decide +kernel
  have bound : (((Session.start 20).evaluateSource
      "(+ (define x true) true)").2.store.binding? Session.root ⟨"x"⟩).isSome := by
    decide +kernel
  have unbound : ((Session.start 20).store.binding? Session.root ⟨"x"⟩).isNone := by
    decide +kernel
  rcases run : (Session.start 20).evaluateSource "(+ (define x true) true)" with ⟨outcome, t⟩
  rw [run] at refused bound
  cases outcome with
  | ok v => contradiction
  | error e =>
      exact ⟨e, t, rfl, Option.some.inj refused, Option.isSome_iff_exists.mp bound,
        Option.isNone_iff_eq_none.mp unbound⟩

end MiniLisp
