import MiniLisp.Proofs.Store.Lookup
import MiniLisp.Proofs.Value.Parameters

/-! # The ledger of a forest of frames

A ledger follows a forest of frames on paper. It has an account for every frame, with the outer
frame and everything that was ever posted to it, oldest first. Whatever operations have built the
frames, and wherever an update has stopped midway, what is looked up, found and printed is what the
ledger tells: the last posting to the nearest account on the way outward.
-/

namespace MiniLisp

/-- Symbols with the values written to them, oldest first. -/
abbrev Postings := List (Symbol × Value)

namespace Postings

def last? (p : Postings) (x : Symbol) : Option Value :=
  (p.reverse.find? (·.1 = x)).map Prod.snd

/-- Each of the symbols once, where it comes first, with the value last posted to it. -/
def settled (p : Postings) (symbols : List Symbol) : Postings :=
  symbols.eraseDups.filterMap fun x => (p.last? x).map (x, ·)

def listing (p : Postings) : String :=
  let items := (p.settled (p.map Prod.fst)).map fun (x, v) => x.name ++ ": " ++ v.inspect
  "\x7b" ++ ", ".intercalate items ++ "\x7d"

/-- Keys other than symbols are left out. -/
def ofEntries (entries : List (Value × Value)) : Postings :=
  entries.filterMap fun (key, v) => key.symbol?.map (·, v)

/-- What an update posts: the symbols before the first key that is none, with the values that come
with them last, be it after that key. -/
def ofUpdate (entries : List (Value × Value)) : Postings :=
  let sound := ofEntries (entries.takeWhile (·.1.symbol?.isSome))
  (ofEntries entries).settled (sound.map Prod.fst)

end Postings

structure Account where
  outer : Option FrameId := none
  postings : Postings := []

abbrev Ledger := List Account

namespace Ledger

def post (l : Ledger) (i : FrameId) (p : Postings) : Ledger :=
  l.modify i fun a => { a with postings := a.postings ++ p }

def outer? (l : Ledger) (i : FrameId) : Option FrameId :=
  l[i]?.bind (·.outer)

def last? (l : Ledger) (i : FrameId) (x : Symbol) : Option Value :=
  l[i]?.bind (·.postings.last? x)

def listing (l : Ledger) (i : FrameId) : String :=
  (l[i]?.getD {}).postings.listing

def Binds (l : Ledger) (i : FrameId) (x : Symbol) : Prop :=
  ∃ a, l[i]? = some a ∧ x ∈ a.postings.map Prod.fst

/-- The accounts from one outward. -/
inductive Chain (l : Ledger) : FrameId → List FrameId → Prop where
  | root {i : FrameId} (present : i < l.length) (root : l.outer? i = none) : Chain l i [i]
  | link {i o : FrameId} {way : List FrameId} (link : l.outer? i = some o)
      (onward : Chain l o way) : Chain l i (i :: way)

/-- The way outward from `j` comes to `i`, and no account before binds the symbol. -/
def Exposes (l : Ledger) (j i : FrameId) (x : Symbol) : Prop :=
  ∃ before after, l.Chain j (before ++ i :: after) ∧ ∀ k ∈ before, ¬ l.Binds k x

end Ledger

/-- What may be done to a forest of frames. -/
inductive Operation where
  | new (outer : Option FrameId)
  | define (i : FrameId) (key v : Value)
  | update (i : FrameId) (entries : List (Value × Value))
  | extend (outer : FrameId) (params : Value) (args : List Value)

namespace Operation

def run : Operation → Store → Store
  | .new outer, s => (s.allocate outer).2
  | .define i key v, s => (s.define i key v).2
  | .update i entries, s => (s.update i entries).2
  | .extend outer params args, s => (s.openCall outer params args).2

def record : Operation → Ledger → Ledger
  | .new outer, l => l ++ [{ outer }]
  | .define i key v, l => l.post i (.ofEntries [(key, v)])
  | .update i entries, l => l.post i (.ofUpdate entries)
  | .extend outer params args, l =>
    match params.formals? with
    | none => l
    | some formals =>
      if formals.length = args.length then
        l ++ [{ outer := some outer, postings := formals.zip args }]
      else l

def frames : Operation → List FrameId
  | .new outer => outer.toList
  | .define i _ _ | .update i _ | .extend i _ _ => [i]

end Operation

/-- A store that operations have built, each on frames it had by then, and their ledger. -/
inductive Built : Store → Ledger → Prop where
  | empty : Built {} []
  | step {s : Store} {l : Ledger} (before : Built s l) (op : Operation)
      (present : ∀ i ∈ op.frames, i < l.length) : Built (op.run s) (op.record l)

namespace Postings

variable (p : Postings) (x : Symbol)

theorem find?_ofList : (Table.ofList p).find? x = p.last? x :=
  Table.find?_ofList p x

theorem entries_ofList : (Table.ofList p).entries = p.settled (p.map Prod.fst) := by
  rw [Table.entries_eq_filterMap (Table.nodup_keys_ofList p), Table.keys_ofList]
  simp only [find?_ofList]
  rfl

theorem listing_ofList : Frame.listing (.ofList p) = p.listing := by
  unfold Frame.listing
  rw [entries_ofList]
  rfl

theorem isSome_last? : (p.last? x).isSome ↔ x ∈ p.map Prod.fst := by
  rw [← find?_ofList, Table.isSome_find?_ofList]

end Postings

theorem Ledger.binds_iff {l : Ledger} {i : FrameId} {x : Symbol} :
    l.Binds i x ↔ (l.last? i x).isSome := by
  unfold Ledger.Binds Ledger.last?
  cases l[i]? <;> simp [Postings.isSome_last?]

instance (l : Ledger) (i : FrameId) (x : Symbol) : Decidable (l.Binds i x) :=
  decidable_of_iff _ Ledger.binds_iff.symm

namespace Store

/-- Binds one symbol after the other. -/
def bindAll (s : Store) (i : FrameId) (p : Postings) : Store :=
  p.foldl (fun s (x, v) => s.bind i x v) s

/-- Defining and updating bind one symbol after the other, as their postings tell. -/
theorem define_eq (s : Store) (i : FrameId) (key v : Value) :
    (s.define i key v).2 = s.bindAll i (.ofEntries [(key, v)]) := by
  cases key <;> rfl

theorem update_eq (s : Store) (i : FrameId) (entries : List (Value × Value)) :
    (s.update i entries).2 = s.bindAll i (.ofUpdate entries) := by
  have parted : Postings.ofEntries entries =
      .ofEntries (entries.takeWhile (·.1.symbol?.isSome)) ++
        .ofEntries (entries.dropWhile (·.1.symbol?.isSome)) := by
    unfold Postings.ofEntries
    rw [← List.filterMap_append, List.takeWhile_append_dropWhile]
  have written : (Table.ofList (Postings.ofEntries entries)).entries.take
      (Table.ofList (Postings.ofEntries (entries.takeWhile (·.1.symbol?.isSome)))).size =
        Postings.ofUpdate entries := by
    -- the table of all entries begins with that of the sound ones
    unfold Postings.ofUpdate Postings.settled
    simp only [← Postings.find?_ofList]
    rw [parted, Table.ofList_append, Table.take_entries_update (Table.nodup_keys_ofList _)
      (Table.nodup_keys_ofList _), Table.keys_ofList]
  rw [← written]
  unfold update
  split <;> rfl

end Store

def Account.frame (a : Account) : Frame where
  bindings := .ofList a.postings
  outer := a.outer

/-- The frames hold what the ledger tells, and outer frames are older. -/
structure Keeps (s : Store) (l : Ledger) : Prop where
  frame (i : FrameId) : s.frames[i]? = l[i]?.map Account.frame
  ordered : s.Ordered

section

variable {s t : Store} {l : Ledger} {i j k o : FrameId} {x y : Symbol} {v : Value} {p q : Postings}
variable {way : List FrameId}

namespace Ledger

theorem getElem?_post : (l.post i p)[j]? =
    l[j]?.map fun a => if i = j then { a with postings := a.postings ++ p } else a := by
  rw [post, List.getElem?_modify]
  rfl

theorem post_nil : l.post i [] = l := by
  refine List.ext_getElem? fun j => ?_
  rw [getElem?_post]
  cases l[j]? <;> simp

theorem post_post : (l.post i p).post i q = l.post i (p ++ q) := by
  refine List.ext_getElem? fun j => ?_
  simp only [getElem?_post, Option.map_map]
  congr 1
  funext a
  by_cases here : i = j <;> simp [here]

theorem Chain.present (chain : l.Chain i way) : i < l.length := by
  cases chain with
  | root present _ => exact present
  | link link _ =>
      obtain ⟨a, found, _⟩ := Option.bind_eq_some_iff.mp link
      exact (List.getElem?_eq_some_iff.mp found).1

end Ledger

namespace Keeps

theorem empty : Keeps {} [] where
  frame _ := rfl
  ordered _ _ link := by contradiction

section

variable (keeps : Keeps s l)
include keeps

theorem size : s.frames.size = l.length := by
  have same : ∀ n, s.frames.size ≤ n ↔ l.length ≤ n := by
    intro n
    rw [← Array.getElem?_eq_none_iff, keeps.frame, Option.map_eq_none_iff,
      List.getElem?_eq_none_iff]
  exact Nat.le_antisymm ((same _).mpr (Nat.le_refl _)) ((same _).mp (Nat.le_refl _))

theorem outer? : s.outer? i = l.outer? i := by
  unfold Store.outer? Ledger.outer?
  rw [keeps.frame, Option.bind_map]
  rfl

theorem binding? : s.binding? i x = l.last? i x := by
  unfold Store.binding? Ledger.last?
  rw [keeps.frame, Option.bind_map]
  refine Option.bind_congr fun a _ => ?_
  exact Postings.find?_ofList a.postings x

theorem binds_iff : l.Binds i x ↔ (s.binding? i x).isSome := by
  rw [keeps.binding?, Ledger.binds_iff]

theorem unbound_iff : ¬ l.Binds i x ↔ s.binding? i x = none := by
  rw [keeps.binds_iff, Bool.not_eq_true, Option.isSome_eq_false_iff, Option.isNone_iff_eq_none]

theorem chain_iff : l.Chain i way ↔ i < l.length ∧ s.chain i = way := by
  constructor
  · intro chain
    refine ⟨chain.present, ?_⟩
    induction chain with
    | root present root =>
        exact Store.chain_root (keeps.size ▸ present) (keeps.outer?.trans root)
    | link link _ ih => rw [keeps.ordered.chain_link (keeps.outer?.trans link), ih]
  · rintro ⟨present, rfl⟩
    -- every way outward leads to older frames
    induction i using Nat.strongRecOn with
    | ind i ih =>
        cases link : l.outer? i with
        | none =>
            rw [Store.chain_root (keeps.size ▸ present) (keeps.outer?.trans link)]
            exact .root present link
        | some o =>
            have older := keeps.ordered i o (keeps.outer?.trans link)
            rw [keeps.ordered.chain_link (keeps.outer?.trans link)]
            exact .link link (ih o older (Nat.lt_trans older present))

theorem exposes_iff : l.Exposes j i x ↔ j < l.length ∧ s.Exposes j i x := by
  unfold Ledger.Exposes Store.Exposes
  simp only [keeps.chain_iff, keeps.unbound_iff]
  constructor
  · rintro ⟨before, after, ⟨present, way⟩, hidden⟩
    exact ⟨present, before, after, way, hidden⟩
  · rintro ⟨present, before, after, way, hidden⟩
    exact ⟨before, after, ⟨present, way⟩, hidden⟩

theorem push {a : Account} (frames : t.frames = s.frames.push a.frame)
    (older : ∀ o, a.outer = some o → o < l.length) : Keeps t (l ++ [a]) where
  frame i := by
    rw [frames, Array.getElem?_push, keeps.size, keeps.frame]
    by_cases old : i < l.length
    · rw [if_neg (Nat.ne_of_lt old), List.getElem?_append_left old]
    · by_cases fresh : i = l.length
      · rw [fresh, if_pos rfl, List.getElem?_concat_length, Option.map_some]
      · have beyond : (l ++ [a]).length ≤ i :=
          List.length_append ▸ Nat.lt_of_le_of_ne (Nat.le_of_not_lt old) (Ne.symm fresh)
        rw [if_neg fresh, List.getElem?_eq_none (Nat.le_of_not_lt old),
          List.getElem?_eq_none beyond]
  ordered := keeps.ordered.push frames fun o link => keeps.size ▸ older o link

theorem bind (i : FrameId) (x : Symbol) (v : Value) :
    Keeps (s.bind i x v) (l.post i [(x, v)]) where
  frame j := by
    rw [Store.frame_bind, keeps.frame, Ledger.getElem?_post]
    by_cases here : i = j
    · simp only [here, if_true, Option.map_map]
      congr 1
      funext a
      exact congrArg (Frame.mk · a.outer) (Table.ofList_concat a.postings x v).symm
    · simp only [here, if_false, Option.map_id']
  ordered := keeps.ordered.bind i x v

theorem bindAll (i : FrameId) (p : Postings) : Keeps (s.bindAll i p) (l.post i p) := by
  induction p generalizing s l with
  | nil => exact Ledger.post_nil ▸ keeps
  | cons entry rest ih =>
      have onward := ih (keeps.bind i entry.1 entry.2)
      rwa [Ledger.post_post] at onward

theorem run (op : Operation) (present : ∀ i ∈ op.frames, i < l.length) :
    Keeps (op.run s) (op.record l) := by
  cases op with
  | new outer => exact keeps.push rfl fun o link => present o (Option.mem_toList.mpr link)
  | define i key v =>
      have bound := keeps.bindAll i (.ofEntries [(key, v)])
      rwa [← Store.define_eq] at bound
  | update i entries =>
      have bound := keeps.bindAll i (.ofUpdate entries)
      rwa [← Store.update_eq] at bound
  | extend outer params args =>
      simp only [Operation.run, Operation.record, Store.openCall]
      cases params.formals? with
      | none => exact keeps
      | some formals =>
          by_cases arity : formals.length = args.length
          · simp only [arity, if_true]
            refine keeps.push rfl fun o link => present o ?_
            exact Option.some.inj link ▸ List.mem_singleton_self _
          · simpa only [arity, if_false] using keeps

theorem frameText (a : Account) (found : l[i]? = some a) :
    s.frameText i = a.postings.listing ++ if a.outer.isSome then " -> ..." else "" := by
  unfold Store.frameText Frame.text
  rw [keeps.frame, found, Option.map_some, Option.getD_some]
  exact congrArg (· ++ _) (Postings.listing_ofList a.postings)

theorem listing : Frame.listing (s.frames[i]?.getD {}).bindings = l.listing i := by
  unfold Ledger.listing
  rw [keeps.frame]
  cases l[i]? with
  | none => exact Postings.listing_ofList []
  | some a => exact Postings.listing_ofList a.postings

theorem chainText (chain : l.Chain i way) : s.chainText i =
    "<Environment chain: " ++ " -> ".intercalate (way.map l.listing) ++ ">" := by
  unfold Store.chainText
  rw [(keeps.chain_iff.mp chain).2]
  simp only [keeps.listing]

theorem find?_iff (present : j < l.length) :
    s.find? j x = some i ↔ l.Exposes j i x ∧ l.Binds i x := by
  rw [Store.find?_eq_some_iff, keeps.exposes_iff, keeps.binds_iff, and_iff_right present]

theorem lookup_iff (present : j < l.length) :
    s.lookup j x = .ok v ↔ ∃ i, l.Exposes j i x ∧ l.last? i x = some v := by
  rw [Store.lookup_eq_ok_iff, Store.lookup?_eq_some_iff]
  simp only [keeps.exposes_iff, and_iff_right present, keeps.binding?]

theorem lookup_error_iff (present : j < l.length) :
    s.lookup j x = .error (.unbound x) ↔ ∀ way, l.Chain j way → ∀ i ∈ way, ¬ l.Binds i x := by
  rw [Store.lookup_eq_error_iff, Store.lookup?_eq_none_iff]
  simp only [keeps.chain_iff, keeps.unbound_iff]
  exact ⟨fun unbound way chain => chain.2 ▸ unbound, fun unbound => unbound _ ⟨present, rfl⟩⟩

end

end Keeps

theorem Built.keeps (built : Built s l) : Keeps s l := by
  induction built with
  | empty => exact .empty
  | step _ op present ih => exact ih.run op present

namespace Store

/-- The argument at the last place of a parameter is the one that it is bound to. -/
theorem binding?_openCall_fresh {outer : FrameId} {params : Value} {args : List Value}
    {before after : List Symbol} (named : params.formals? = some (before ++ x :: after))
    (opened : s.openCall outer params args = (.ok i, t)) (last : x ∉ after) :
    t.binding? i x = args[before.length]? := by
  obtain ⟨formals, frame, found, arity, rfl, rfl, frames, _⟩ := openCall_eq_ok opened
  cases named.symm.trans found
  rw [binding?_push frames, if_pos rfl]
  obtain ⟨early, v, late, rfl, length⟩ : ∃ early v late,
      args = early ++ v :: late ∧ before.length = early.length := by
    have inside : before.length < args.length := by
      rw [← arity, List.length_append, List.length_cons]
      omega
    refine ⟨args.take before.length, args[before.length], args.drop (before.length + 1), ?_, ?_⟩
    · rw [List.getElem_cons_drop, List.take_append_drop]
    · rw [List.length_take_of_le (Nat.le_of_lt inside)]
  rw [List.zip_append length, List.zip_cons_cons, Table.find?_ofList_append, length,
    List.getElem?_append_right (Nat.le_refl _), Nat.sub_self, List.getElem?_cons_zero]
  intro member
  obtain ⟨entry, inside, rfl⟩ := List.mem_map.mp member
  exact last (List.of_mem_zip inside).1

theorem openCall_symbols (s : Store) (outer : FrameId) {formals : List Symbol} {args : List Value}
    (arity : formals.length = args.length) :
    ∃ t, s.openCall outer (.list (formals.map .symbol)) args = (.ok s.frames.size, t) ∧
      t.frames.size = s.frames.size + 1 ∧ t.outer? s.frames.size = some outer ∧
      (∀ before x after, formals = before ++ x :: after → x ∉ after →
        t.binding? s.frames.size x = args[before.length]?) ∧
      (∀ x ∉ formals, t.binding? s.frames.size x = none) ∧
      ∀ k < s.frames.size, t.frames[k]? = s.frames[k]? := by
  have named := Value.formals?_symbols formals
  obtain ⟨_, t, opened⟩ := s.openCall_exists outer named arity
  obtain ⟨_, _, found, _, rfl, rfl, frames, _⟩ := openCall_eq_ok opened
  cases named.symm.trans found
  refine ⟨t, opened, size_openCall opened, ?_, ?_, ?_, fun k => frame_openCall opened⟩
  · rw [outer?_push frames, if_pos rfl]
  · rintro before x after rfl last
    exact binding?_openCall_fresh named opened last
  · intro x absent
    rw [binding?_push frames, if_pos rfl, ← Option.not_isSome_iff_eq_none,
      Table.isSome_find?_ofList, List.map_fst_zip (Nat.le_of_eq arity)]
    exact absent

end Store

/-- The frames find, look up and print what the ledger tells. What is defined in a frame is found
from exactly the frames that expose the name there, and the others find what they found before. A
call adds one frame, which binds each parameter to the last argument for it, and changes no other;
one that fails leaves the store as it was. -/
theorem forest_follows_ledger (built : Built s l) :
    (∀ j < l.length, (∃! way, l.Chain j way) ∧ ∀ y,
      (∀ k, s.find? j y = some k ↔ l.Exposes j k y ∧ l.Binds k y) ∧
      (∀ v, s.lookup j y = .ok v ↔ ∃ k, l.Exposes j k y ∧ l.last? k y = some v) ∧
      (s.lookup j y = .error (.unbound y) ↔
        ∀ way, l.Chain j way → ∀ k ∈ way, ¬ l.Binds k y)) ∧
    (∀ i < l.length, ∀ x v, ∃ t, s.define i (.symbol x) v = (.ok x, t) ∧ ∀ j < l.length, ∀ y,
      (y = x ∧ l.Exposes j i x → t.find? j y = some i ∧ t.lookup j y = .ok v) ∧
      (¬ (y = x ∧ l.Exposes j i x) →
        t.find? j y = s.find? j y ∧ t.lookup j y = s.lookup j y)) ∧
    (∀ outer formals args, formals.length = args.length →
      ∃ t, s.openCall outer (.list (formals.map .symbol)) args = (.ok l.length, t) ∧
        t.frames.size = l.length + 1 ∧ t.outer? l.length = some outer ∧
        (∀ before x after, formals = before ++ x :: after → x ∉ after →
          t.binding? l.length x = args[before.length]?) ∧
        (∀ x ∉ formals, t.binding? l.length x = none) ∧
        ∀ k < l.length, t.frames[k]? = s.frames[k]?) ∧
    (∀ outer params args e t, s.openCall outer params args = (.error e, t) → t = s) ∧
    (∀ k a, l[k]? = some a →
      s.frameText k = a.postings.listing ++ if a.outer.isSome then " -> ..." else "") ∧
    (∀ j way, l.Chain j way → s.chainText j =
      "<Environment chain: " ++ " -> ".intercalate (way.map l.listing) ++ ">") := by
  have keeps := built.keeps
  refine ⟨fun j present => ⟨?_, fun y => ⟨fun k => keeps.find?_iff present,
      fun v => keeps.lookup_iff present, keeps.lookup_error_iff present⟩⟩,
    fun i within x v => ⟨s.bind i x v, rfl, fun j present y => ⟨?_, ?_⟩⟩,
    fun outer formals args arity => keeps.size ▸ s.openCall_symbols outer arity,
    fun _ _ _ _ _ => Store.openCall_eq_error, fun k a => keeps.frameText a,
    fun j way => keeps.chainText⟩
  · exact ⟨s.chain j, keeps.chain_iff.mpr ⟨present, rfl⟩,
      fun way chain => (keeps.chain_iff.mp chain).2.symm⟩
  · rintro ⟨rfl, exposed⟩
    have within := keeps.size ▸ within
    have exposed := (keeps.exposes_iff.mp exposed).2
    exact ⟨Store.find?_bind_exposed within exposed, Store.lookup_bind_exposed within exposed⟩
  · intro other
    have within := keeps.size ▸ within
    have hidden : ¬ (y = x ∧ s.Exposes j i x) := by
      rwa [keeps.exposes_iff, and_iff_right present] at other
    exact ⟨Store.find?_bind_hidden within hidden, Store.lookup_bind_hidden within hidden⟩

/-- Three frames, one within the other; `x` has been passed twice to the innermost one, and the
update of the outermost one has stopped at its third entry. -/
theorem forest_follows_ledger_shadowed :
    ∃ s, Built s [
        { postings := [(⟨"x"⟩, .boolean true), (⟨"x"⟩, .symbol ⟨"z"⟩), (⟨"z"⟩, .boolean true)] },
        { outer := some 0 },
        { outer := some 1, postings := [(⟨"x"⟩, .boolean true), (⟨"y"⟩, .boolean false),
          (⟨"x"⟩, .symbol ⟨"y"⟩)] }] ∧
      s.find? 2 ⟨"z"⟩ = some 0 ∧ s.lookup 2 ⟨"x"⟩ = .ok (.symbol ⟨"y"⟩) ∧
      s.lookup 2 ⟨"w"⟩ = .error (.unbound ⟨"w"⟩) ∧
      (∃ t, s.define 0 (.symbol ⟨"x"⟩) (.boolean false) = (.ok ⟨"x"⟩, t) ∧
        t.lookup 0 ⟨"x"⟩ = .ok (.boolean false) ∧ t.lookup 2 ⟨"x"⟩ = .ok (.symbol ⟨"y"⟩)) ∧
      (∃ t, s.openCall 0 (.list [.symbol ⟨"a"⟩, .symbol ⟨"a"⟩]) [.boolean true, .boolean false] =
          (.ok 3, t) ∧ t.binding? 3 ⟨"a"⟩ = some (.boolean false)) ∧
      s.frameText 0 = "\x7bx: Symbol('z'), z: True\x7d" ∧
      s.chainText 2 = "<Environment chain: \x7bx: Symbol('y'), y: False\x7d -> \x7b\x7d -> " ++
        "\x7bx: Symbol('z'), z: True\x7d>" := by
  let l : Ledger := [
    { postings := [(⟨"x"⟩, .boolean true), (⟨"x"⟩, .symbol ⟨"z"⟩), (⟨"z"⟩, .boolean true)] },
    { outer := some 0 },
    { outer := some 1, postings := [(⟨"x"⟩, .boolean true), (⟨"y"⟩, .boolean false),
      (⟨"x"⟩, .symbol ⟨"y"⟩)] }]
  have built : Built _ l :=
    ((((Built.empty.step (.new none) (by decide)).step (.new (some 0)) (by decide)).step
    (.define 0 (.symbol ⟨"x"⟩) (.boolean true)) (by decide)).step
    (.extend 1 (.list [.symbol ⟨"x"⟩, .symbol ⟨"y"⟩, .symbol ⟨"x"⟩])
      [.boolean true, .boolean false, .symbol ⟨"y"⟩]) (by decide)).step
    (.update 0 [(.symbol ⟨"x"⟩, .boolean false), (.symbol ⟨"z"⟩, .boolean true),
      (.boolean true, .boolean true), (.symbol ⟨"x"⟩, .symbol ⟨"z"⟩)]) (by decide)
  obtain ⟨read, written, called, _, printed, chained⟩ := forest_follows_ledger built
  have root : l.Chain 0 [0] := .root (by decide) rfl
  have way : l.Chain 2 [2, 1, 0] := .link rfl (.link rfl root)
  obtain ⟨⟨_, _, only⟩, inner⟩ := read 2 (by decide)
  have unique : ∀ way', l.Chain 2 way' → way' = [2, 1, 0] := fun way' chain =>
    (only way' chain).trans (only _ way).symm
  have shadowed : ¬ l.Exposes 2 0 ⟨"x"⟩ := by
    rintro ⟨before, after, chain, hidden⟩
    cases before with
    | nil => exact absurd (unique _ chain) (by simp)
    | cons k before =>
        obtain ⟨rfl, _⟩ := List.cons.inj (unique _ chain)
        exact hidden 2 List.mem_cons_self (by decide)
  have nearest := ((inner ⟨"x"⟩).2.1 _).mpr ⟨2, ⟨[], [1, 0], way, by decide⟩, rfl⟩
  obtain ⟨t, defined, after⟩ := written 0 (by decide) ⟨"x"⟩ (.boolean false)
  obtain ⟨u, opened, _, _, last, _⟩ := called 0 [⟨"a"⟩, ⟨"a"⟩] [.boolean true, .boolean false] rfl
  refine ⟨_, built, ?_, nearest, ?_, ⟨t, defined, ?_, ?_⟩, ⟨u, opened, ?_⟩, ?_, ?_⟩
  · exact ((inner _).1 _).mpr ⟨⟨[2, 1], [], way, by decide⟩, by decide⟩
  · refine (inner _).2.2.mpr fun way' chain => ?_
    cases unique _ chain
    decide
  · exact ((after 0 (by decide) _).1 ⟨rfl, [], [], root, by decide⟩).2
  · exact ((after 2 (by decide) _).2 (shadowed ·.2)).2.trans nearest
  · exact last [⟨"a"⟩] ⟨"a"⟩ [] rfl (by decide)
  · exact (printed 0 _ rfl).trans (by decide +kernel)
  · exact (chained 2 _ way).trans (by decide +kernel)

end

end MiniLisp
