import MiniLisp.Proofs.Evaluation.Simulation
import MiniLisp.Proofs.Store.Lookup
import MiniLisp.Proofs.Value.Renaming

namespace MiniLisp

def Frame.rename (f : Symbol → Symbol) (frame : Frame) : Frame :=
  frame.map f (Value.rename f) id

def Event.rename (f : Symbol → Symbol) : Event → Event
  | .bound i x v => .bound i (f x) (v.rename f)
  | .called i content => .called i (content.rename f)
  | .loadingPrelude path => .loadingPrelude path
  | .ignoredTokens count => .ignoredTokens count
  | .depthExceeded line => .depthExceeded line

def Store.rename (f : Symbol → Symbol) (s : Store) : Store where
  frames := s.frames.map (Frame.rename f)
  history := s.history.map (Event.rename f)

namespace Store

variable {f : Symbol → Symbol} {s t : Store} {i : FrameId} {x : Symbol}

@[simp]
theorem frames_rename (s : Store) : (s.rename f).frames = s.frames.map (Frame.rename f) :=
  rfl

theorem frame_rename (s : Store) (i : FrameId) :
    (s.rename f).frames[i]? = s.frames[i]?.map (Frame.rename f) :=
  Array.getElem?_map

theorem note_rename (s : Store) (e : Event) :
    (s.note e).rename f = (s.rename f).note (e.rename f) := by
  simp [note, rename]

theorem outer?_rename (s : Store) (i : FrameId) : (s.rename f).outer? i = s.outer? i := by
  unfold outer?
  rw [frame_rename]
  cases s.frames[i]? with
  | none => rfl
  | some frame => exact Option.map_id_apply

section

variable (consistent : Renaming f)
include consistent

theorem binding?_rename (s : Store) (i : FrameId) (x : Symbol) :
    (s.rename f).binding? i (f x) = (s.binding? i x).map (Value.rename f) := by
  unfold binding?
  rw [frame_rename]
  cases s.frames[i]? with
  | none => rfl
  | some frame => exact Table.find?_map consistent.injective frame.bindings x

theorem find?_rename (s : Store) (i : FrameId) (x : Symbol) :
    (s.rename f).find? i (f x) = s.find? i x := by
  unfold find? chain
  rw [walk_congr s.outer?_rename]
  simp [binding?_rename consistent]

theorem lookup?_rename (s : Store) (i : FrameId) (x : Symbol) :
    (s.rename f).lookup? i (f x) = (s.lookup? i x).map (Value.rename f) := by
  unfold lookup?
  rw [find?_rename consistent, Option.map_bind]
  congr
  funext j
  exact s.binding?_rename consistent j x

theorem bind_rename (s : Store) (i : FrameId) (x : Symbol) (v : Value) :
    (s.bind i x v).rename f = (s.rename f).bind i (f x) (v.rename f) := by
  have frames : (s.bind i x v).frames.map (Frame.rename f) =
      ((s.rename f).bind i (f x) (v.rename f)).frames := by
    refine Array.ext_getElem? fun j => ?_
    rw [Array.getElem?_map, frame_bind, frame_bind, frame_rename]
    split
    · cases s.frames[j]? with
      | none => rfl
      | some frame => exact congrArg some (frame.map_insert consistent.injective x v)
    · rfl
  exact congrArg₂ Store.mk frames Array.map_push

theorem rename_of_openCall {t' : Store} {outer i' : FrameId} {params : Value} {args : List Value}
    (opened : s.openCall outer params args = (.ok i, t))
    (opened' : (s.rename f).openCall outer (params.rename f) (args.map (Value.rename f)) =
      (.ok i', t')) :
    i' = i ∧ t' = t.rename f := by
  obtain ⟨formals, frame, named, _, content, fresh, frames, history⟩ := openCall_eq_ok opened
  obtain ⟨_, frame', named', _, content', fresh', frames', history'⟩ := openCall_eq_ok opened'
  have same : i' = i := by rw [fresh, fresh', frames_rename, Array.size_map]
  have renamed : frame' = frame.rename f := by
    rw [Value.formals?_rename, named] at named'
    cases named'
    rw [content, content', Frame.rename, Frame.map_call consistent.injective]
    rfl
  refine ⟨same, ?_⟩
  cases t
  cases t'
  simp_all [rename, Event.rename]

end

end Store

/-- A value in a store, and the renamed value in the renamed store. -/
def renamedRelations (f : Symbol → Symbol) : Relations OneWorld where
  stores _ s s' := s' = s.rename f
  values _ v v' := v' = v.rename f
  code _ expr i expr' i' := expr' = expr.rename f ∧ i' = i
  errors e e' := e.depth = e'.depth ∧ e.kind = e'.kind

section

variable {f : Symbol → Symbol}

theorem renamed_args {w : OneWorld} {args args' : List Value}
    (same : List.Forall₂ ((renamedRelations f).values w) args args') :
    args' = args.map (Value.rename f) := by
  induction same with
  | nil => rfl
  | cons first _ ih => rw [List.map_cons, ← ih, first]

theorem renamed_shown {v : Value} {error : Value → Error} {kind : Error.Kind}
    (shows : ∀ v, (error v).kind = kind ∧ (error v).shown? = some v) :
    (renamedRelations f).errors (error v) (error (v.rename f)) := by
  refine ⟨?_, (shows _).1.trans (shows _).1.symm⟩
  simp only [Error.depth, (shows _).2, Value.nesting_rename]

variable (consistent : Renaming f)
include consistent

theorem renamed_lookup (s : Store) (i : FrameId) (x : Symbol) :
    (renamedRelations f).Outcomes ((renamedRelations f).values .world) (s.lookup i x)
      ((s.rename f).lookup i (f x)) := by
  unfold Store.lookup
  rw [Store.lookup?_rename consistent]
  cases s.lookup? i x with
  | some v => exact .ok rfl
  | none => exact .error ⟨rfl, rfl⟩

theorem renamed_step (expr : Value) (i : FrameId) :
    (renamedRelations f).Step .world expr i (expr.rename f) i := by
  cases expr with
  | number => exact .atom .number
  | boolean => exact .atom .boolean
  | builtin => exact .atom .builtin
  | closure => exact .closure
  | foreign => exact .foreign
  | symbol x =>
      refine .symbol fun {s s'} stores => ?_
      cases stores
      exact renamed_lookup consistent s i x
  | list items =>
      rw [Value.rename_list]
      cases items with
      | nil => exact .empty
      | cons head forms =>
          refine .list (consistent.keyword?_rename head) (fun _ => ⟨rfl, rfl⟩) ?_ ?_ ?_
          · rw [List.forall₂_map_right_iff, List.forall₂_same]
            exact fun _ _ => ⟨rfl, rfl⟩
          · intro target form target' form' two two'
            subst two
            cases two'
            cases target with
            | symbol x =>
                refine .inl ⟨x, f x, rfl, rfl, fun {_ s s' v v'} _ stores value => ?_⟩
                cases stores
                cases value
                exact ⟨(s.bind_rename consistent i x v).symm, rfl⟩
            | list | closure | number | boolean | builtin | foreign =>
                exact .inr ⟨nofun, nofun, renamed_shown fun _ => ⟨rfl, rfl⟩⟩
          · intro params body params' body' two two'
            subst two
            cases two'
            rfl

def renamed : Simulation OneWorld where
  toRelations := renamedRelations f
  values_mono _ same := same
  code_mono _ same := same
  atom atom := by cases atom <;> rfl
  alike {_ v _} same := by
    cases same
    cases v <;> constructor
  step {_ expr i _ _} same := by
    obtain ⟨rfl, rfl⟩ := same
    exact renamed_step consistent expr _
  arity same := by
    cases same
    rw [Value.formals?_rename]
    simp [Option.map_map, Function.comp_def]
  call function stores arguments opened opened' := by
    cases function
    cases stores
    cases renamed_args arguments
    obtain ⟨rfl, rfl⟩ := Store.rename_of_openCall consistent opened opened'
    exact ⟨.world, le_refl _, rfl, rfl, rfl⟩
  errors_refl _ := ⟨rfl, rfl⟩
  errors_depth same := same.1
  errors_shown same := by
    cases same
    exact ⟨renamed_shown fun _ => ⟨rfl, rfl⟩, renamed_shown fun _ => ⟨rfl, rfl⟩,
      fun _ => renamed_shown fun _ => ⟨rfl, rfl⟩⟩

end

/-- The renamed value, or an error of the same kind, and the renamed store. -/
theorem evaluate_rename {f : Symbol → Symbol} (consistent : Renaming f) (s : Store) (depth : Nat)
    (expr : Value) (frame : FrameId) :
    let run := (evaluate depth expr frame).run.run s
    let run' := (evaluate depth (expr.rename f) frame).run.run (s.rename f)
    run'.1.mapError Error.kind = (run.1.map (Value.rename f)).mapError Error.kind ∧
      run'.2 = run.2.rename f := by
  intro run run'
  have code : (renamedRelations f).code .world expr frame (expr.rename f) frame := ⟨rfl, rfl⟩
  obtain ⟨_, _, stores, outcomes⟩ := (renamed consistent).evaluate code rfl depth
  refine ⟨?_, stores⟩
  generalize run.1 = outcome at outcomes ⊢
  generalize run'.1 = outcome' at outcomes ⊢
  cases outcomes with
  | error same => exact congrArg Except.error same.2.symm
  | ok same => exact congrArg Except.ok same

end MiniLisp
