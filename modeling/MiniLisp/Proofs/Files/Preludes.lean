import MiniLisp.Proofs.Files.SearchPath
import MiniLisp.Proofs.Files.Tree
import MiniLisp.Proofs.Session.Loading

/-! # The preludes that are asked for

An entry of the search path asks for a file, or for the files in a directory that are named as
sources are. They are told here by what the tree holds. They are the ones that are listed, unless a
directory that is asked for holds a directory or a device with such a name. It is listed too, and a
directory cannot be read.
-/

namespace MiniLisp

section

variable {α β ε : Type} {items : List α} {results : List β} {f : α → Except ε β}

theorem mapM_eq_ok_iff : items.mapM f = .ok results ↔
    List.Forall₂ (fun item result => f item = .ok result) items results := by
  induction items generalizing results with
  | nil =>
      rw [List.mapM_nil, List.forall₂_nil_left_iff]
      exact ⟨fun same => (Except.ok.inj same).symm, fun empty => empty ▸ rfl⟩
  | cons item rest ih =>
      rw [List.mapM_cons, List.forall₂_cons_left_iff]
      cases here : f item with
      | error e => exact iff_of_false nofun (by rintro ⟨_, _, other, _⟩; cases other)
      | ok result =>
          simp only [← ih]
          cases others : rest.mapM f with
          | error e => exact iff_of_false nofun (by rintro ⟨_, _, _, other, _⟩; cases other)
          | ok results' =>
              constructor
              · intro same
                cases same
                exact ⟨_, _, rfl, rfl, rfl⟩
              · rintro ⟨_, _, first, later, rfl⟩
                cases first
                cases later
                rfl

theorem exists_of_mapM_error {e : ε} (failed : items.mapM f = .error e) :
    ∃ item ∈ items, f item = .error e := by
  induction items with
  | nil => exact absurd failed nofun
  | cons item rest ih =>
      rw [List.mapM_cons] at failed
      cases here : f item with
      | error reason =>
          rw [here] at failed
          cases failed
          exact ⟨item, List.mem_cons_self, here⟩
      | ok result =>
          rw [here] at failed
          cases others : rest.mapM f with
          | ok results =>
              rw [others] at failed
              cases failed
          | error reason =>
              rw [others] at failed
              cases failed
              obtain ⟨later, member, same⟩ := ih others
              exact ⟨later, List.mem_cons_of_mem item member, same⟩

theorem exists_of_mem_forall₂ {R : α → β → Prop} (all : List.Forall₂ R items results) {item : α}
    (member : item ∈ items) : ∃ result ∈ results, R item result := by
  induction all with
  | nil => contradiction
  | cons first _ ih =>
      rcases List.mem_cons.mp member with rfl | later
      · exact ⟨_, List.mem_cons_self, first⟩
      · obtain ⟨result, inside, related⟩ := ih later
        exact ⟨result, List.mem_cons_of_mem _ inside, related⟩

theorem append_eq_iff_of_sublist {a b c d : List α} (first : a.Sublist c)
    (second : b.Sublist d) : a ++ b = c ++ d ↔ a = c ∧ b = d := by
  constructor
  · intro same
    have lengths := congrArg List.length same
    rw [List.length_append, List.length_append] at lengths
    have := first.length_le
    have := second.length_le
    exact List.append_inj same (by omega)
  · rintro ⟨rfl, rfl⟩
    rfl

end

/-- The name ends as those of sources do. -/
def NamesSource (name : String) : Prop :=
  ".lisp".toList <:+ name.toList

instance (name : String) : Decidable (NamesSource name) :=
  inferInstanceAs (Decidable (_ <:+ _))

namespace NamesSource

theorem endsWith_iff {name : String} : name.endsWith ".lisp" = true ↔ NamesSource name := by
  rw [String.endsWith_eq_endsWith_toSlice, String.Slice.endsWith_string_iff,
    String.copy_toSlice]
  rfl

theorem ne_of_length {name other : String} (source : NamesSource name) (short : other.length < 5) :
    name ≠ other := by
  rintro rfl
  have := source.length_le
  rw [String.length_toList] at this
  exact absurd short (Nat.not_lt.mpr this)

end NamesSource

theorem Path.child_injective (root : Path) : Function.Injective root.child := by
  intro name other same
  have parts : root.parts ++ [name] = root.parts ++ [other] := congrArg Path.parts same
  exact (List.cons.inj (List.append_cancel_left parts)).1

namespace FileTree

/-- What an entry of the search path should give: a directory the files in it that are named as
sources are, in the order of their names, a file itself, and anything else nothing. -/
inductive Contributes (t : FileTree) : PreludeRoot → List Prelude → Prop where
  | bundled : Contributes t .bundled [.bundled]
  | directory {sources : List String} (leads : t.locate root = .ok l)
      (directory : t.isDirectory l = true)
      (exact : ∀ name, name ∈ sources ↔ NamesSource name ∧ t.isFile (l ++ [name]) = true)
      (ordered : sources.Pairwise (· < ·)) :
      Contributes t (.path root) (sources.map fun name => .file (root.child name))
  | file (leads : t.locate root = .ok l) (noDirectory : t.isDirectory l = false)
      (file : t.isFile l = true) : Contributes t (.path root) [.file root]
  | other (nothing : ∀ l, t.locate root = .ok l → t.isDirectory l = false ∧ t.isFile l = false) :
      Contributes t (.path root) []

/-- The path leads to a directory in which this is named as sources are and is no file. -/
def Misleads (t : FileTree) (root : Path) (entry : Location) : Prop :=
  ∃ l name, t.locate root = .ok l ∧ t.isDirectory l = true ∧ NamesSource name ∧
    entry = l ++ [name] ∧ (t.isDirectory entry = true ∨ entry ∈ t.devices) ∧
    t.isFile entry = false

variable {t : FileTree} {l entry : Location} {root : Path} {name : String}

/-- What a directory holds that is named as sources are. -/
def sourcesIn (t : FileTree) (l : Location) : List String :=
  (t.names l).filter (·.endsWith ".lisp")

theorem mem_sourcesIn_iff : name ∈ t.sourcesIn l ↔ NamesSource name ∧
    (t.isFile (l ++ [name]) = true ∨ t.isDirectory (l ++ [name]) = true ∨
      l ++ [name] ∈ t.devices) := by
  rw [sourcesIn, List.mem_filter, NamesSource.endsWith_iff, and_comm]
  refine and_congr_right fun source => ?_
  exact mem_names_iff (source.ne_of_length (by decide)) (source.ne_of_length (by decide))

theorem sourcesIn_pairwise (t : FileTree) (l : Location) : (t.sourcesIn l).Pairwise (· < ·) :=
  (t.names_pairwise l).filter _

theorem preludesAt_directory (leads : t.locate root = .ok l) (directory : t.isDirectory l = true) :
    t.preludesAt (.path root) =
      .ok ((t.sourcesIn l).map fun name => .file (root.child name)) := by
  rw [preludesAt, leads]
  exact if_pos directory

/-- What an entry of the search path gives, as it is listed but for what is no file. -/
def given (t : FileTree) : PreludeRoot → List Prelude
  | .bundled => [.bundled]
  | .path root =>
    match t.locate root with
    | .error _ => []
    | .ok l =>
      if t.isDirectory l then
        ((t.sourcesIn l).filter fun name => t.isFile (l ++ [name])).map fun name =>
          .file (root.child name)
      else if t.isFile l then [.file root]
      else []

theorem Contributes.eq_given {entry : PreludeRoot} {part : List Prelude}
    (contributes : t.Contributes entry part) : part = t.given entry := by
  cases contributes with
  | bundled => rfl
  | @directory root l sources leads directory exact ordered =>
      have same : sources = (t.sourcesIn l).filter fun name => t.isFile (l ++ [name]) := by
        refine ordered.eq_of_mem_iff ((t.sourcesIn_pairwise l).filter _) fun name => ?_
        rw [exact, List.mem_filter, mem_sourcesIn_iff]
        tauto
      simp only [given, leads, directory, if_true, same]
  | file leads noDirectory file => simp [given, leads, noDirectory, file]
  | @other root nothing =>
      cases leads : t.locate root with
      | error => simp only [given, leads]
      | ok l => simp [given, leads, nothing l leads]

theorem contributes_given (t : FileTree) (entry : PreludeRoot) :
    t.Contributes entry (t.given entry) := by
  cases entry with
  | bundled => exact .bundled
  | path root =>
      cases leads : t.locate root with
      | error =>
          simp only [given, leads]
          exact .other fun l other => nomatch leads.symm.trans other
      | ok l =>
          simp only [given, leads]
          split
          · rename_i directory
            refine .directory leads directory (fun name => ?_) ((t.sourcesIn_pairwise l).filter _)
            rw [List.mem_filter, mem_sourcesIn_iff]
            tauto
          · rename_i noDirectory
            have noDirectory := Bool.eq_false_iff.mpr noDirectory
            split
            · exact .file leads noDirectory ‹_›
            · rename_i noFile
              refine .other fun k other => ?_
              cases leads.symm.trans other
              exact ⟨noDirectory, Bool.eq_false_iff.mpr noFile⟩

/-- Each entry contributes one list of preludes. -/
theorem forall₂_contributes_iff {roots : List PreludeRoot} {parts : List (List Prelude)} :
    List.Forall₂ t.Contributes roots parts ↔ parts = roots.map t.given := by
  rw [eq_comm, ← List.forall₂_eq_eq_eq, List.forall₂_map_left_iff]
  constructor
  · exact fun all => all.imp fun _ _ contributes => contributes.eq_given.symm
  · exact fun all => all.imp fun entry _ same => same ▸ t.contributes_given entry

theorem exists_preludesAt_iff :
    (∃ list, t.preludesAt (.path root) = .ok list) ↔ t.locate root ≠ .error .nameTooLong := by
  cases leads : t.locate root with
  | error reason => cases reason <;> simp [preludesAt, leads]
  | ok l =>
      simp only [preludesAt, leads, ne_eq, reduceCtorEq, not_false_eq_true, iff_true]
      split
      · exact ⟨_, rfl⟩
      · split <;> exact ⟨_, rfl⟩

theorem not_misleads (noDirectory : ∀ l, t.locate root = .ok l → t.isDirectory l = false) :
    ¬ t.Misleads root entry := by
  rintro ⟨l, _, leads, directory, _⟩
  rw [noDirectory l leads] at directory
  contradiction

/-- A path to no directory gives what is listed. -/
theorem given_of_no_directory {list : List Prelude}
    (noDirectory : ∀ l, t.locate root = .ok l → t.isDirectory l = false)
    (listed : t.preludesAt (.path root) = .ok list) :
    t.given (.path root) = list := by
  cases leads : t.locate root with
  | error reason => cases reason <;> simp_all [given, preludesAt]
  | ok l =>
      have plain := noDirectory l leads
      cases file : t.isFile l <;> simp_all [given, preludesAt]

/-- What is given is listed, and nothing else is if the path does not mislead. -/
theorem given_of_preludesAt {list : List Prelude} (listed : t.preludesAt (.path root) = .ok list) :
    (t.given (.path root)).Sublist list ∧
      (t.given (.path root) = list ↔ ∀ entry, ¬ t.Misleads root entry) := by
  by_cases noDirectory : ∀ l, t.locate root = .ok l → t.isDirectory l = false
  · have same := given_of_no_directory noDirectory listed
    exact ⟨same ▸ List.Sublist.refl _, iff_of_true same fun _ => not_misleads noDirectory⟩
  · push Not at noDirectory
    obtain ⟨l, leads, directory⟩ := noDirectory
    have directory : t.isDirectory l = true := by simpa using directory
    have given : t.given (.path root) = ((t.sourcesIn l).filter fun name =>
        t.isFile (l ++ [name])).map fun name => .file (root.child name) := by
      simp only [given, leads, directory, if_true]
    have all : list = (t.sourcesIn l).map fun name => .file (root.child name) :=
      Except.ok.inj (listed.symm.trans (preludesAt_directory leads directory))
    have injective : Function.Injective fun name => Prelude.file (root.child name) :=
      fun name other same => root.child_injective (Prelude.file.inj same)
    rw [given, all, injective.list_map.eq_iff, List.filter_eq_self]
    refine ⟨List.filter_sublist.map _, ?_⟩
    constructor
    · rintro files entry ⟨k, name, leads', _, source, rfl, other, noFile⟩
      cases leads.symm.trans leads'
      have file := files name (mem_sourcesIn_iff.mpr ⟨source, .inr other⟩)
      rw [noFile] at file
      contradiction
    · intro straight name member
      obtain ⟨source, file | other⟩ := mem_sourcesIn_iff.mp member
      · exact file
      · by_contra noFile
        have noFile : t.isFile (l ++ [name]) = false := by simpa using noFile
        exact straight _ ⟨l, name, leads, directory, source, rfl, other, noFile⟩

/-- What all entries give is listed, and nothing else is if none of the paths misleads. -/
theorem flatMap_given {roots : List PreludeRoot} {lists : List (List Prelude)}
    (listed : List.Forall₂ (fun entry list => t.preludesAt entry = .ok list) roots lists) :
    (roots.flatMap t.given).Sublist lists.flatten ∧
      (roots.flatMap t.given = lists.flatten ↔
        ∀ root, .path root ∈ roots → ∀ entry, ¬ t.Misleads root entry) := by
  induction listed with
  | nil => simp
  | @cons entry list roots lists here _ ih =>
      obtain ⟨sublist, same⟩ := ih
      have first : (t.given entry).Sublist list ∧
          (t.given entry = list ↔ ∀ root, entry = .path root → ∀ l, ¬ t.Misleads root l) := by
        cases entry with
        | bundled =>
            cases here
            exact ⟨List.Sublist.refl _, iff_of_true rfl nofun⟩
        | path root => simpa using given_of_preludesAt here
      rw [List.flatMap_cons, List.flatten_cons]
      refine ⟨first.1.append sublist, ?_⟩
      rw [append_eq_iff_of_sublist first.1 sublist, first.2, same]
      simp only [List.mem_cons, or_imp, forall_and, eq_comm]

theorem preludes_eq_ok_iff {v : Variables} {listed : List Prelude} : t.preludes v = .ok listed ↔
    ∃ lists, List.Forall₂ (fun entry list => t.preludesAt entry = .ok list) v.preludeRoots lists ∧
      lists.flatten = listed := by
  simp only [preludes, ← mapM_eq_ok_iff]
  cases v.preludeRoots.mapM t.preludesAt with
  | error => exact iff_of_false nofun (by rintro ⟨_, other, _⟩; cases other)
  | ok lists => simp [Except.map]

theorem preludes_error {v : Variables} {reason : FileError}
    (failed : t.preludes v = .error reason) :
    reason = .nameTooLong ∧ ∃ root, .path root ∈ v.preludeRoots ∧
      t.locate root = .error .nameTooLong := by
  have stopped : v.preludeRoots.mapM t.preludesAt = .error reason := by
    unfold preludes at failed
    cases lists : v.preludeRoots.mapM t.preludesAt with
    | error =>
        rw [lists] at failed
        cases failed
        rfl
    | ok =>
        rw [lists] at failed
        cases failed
  obtain ⟨entry, member, here⟩ := exists_of_mapM_error stopped
  cases entry with
  | bundled => cases here
  | path root =>
      have long : t.locate root = .error .nameTooLong := by
        by_contra within
        obtain ⟨list, listed⟩ := exists_preludesAt_iff.mpr within
        rw [listed] at here
        cases here
      rw [preludesAt, long] at here
      exact ⟨(Except.error.inj here).symm, root, member, long⟩

theorem exists_preludes_iff {v : Variables} : (∃ listed, t.preludes v = .ok listed) ↔
    ∀ root, .path root ∈ v.preludeRoots → t.locate root ≠ .error .nameTooLong := by
  constructor
  · rintro ⟨listed, found⟩ root member
    obtain ⟨lists, each, _⟩ := preludes_eq_ok_iff.mp found
    obtain ⟨list, _, here⟩ := exists_of_mem_forall₂ each member
    exact exists_preludesAt_iff.mp ⟨list, here⟩
  · intro within
    cases found : t.preludes v with
    | ok listed => exact ⟨listed, rfl⟩
    | error =>
        obtain ⟨_, root, member, long⟩ := preludes_error found
        exact absurd long (within root member)

/-- The preludes listed are those that are given if and only if no name is too long and no path
misleads. -/
theorem preludes_eq_given_iff {v : Variables} :
    t.preludes v = .ok (v.preludeRoots.flatMap t.given) ↔
      ∀ root, .path root ∈ v.preludeRoots →
        t.locate root ≠ .error .nameTooLong ∧ ∀ entry, ¬ t.Misleads root entry := by
  simp only [imp_and, forall_and, ← exists_preludes_iff]
  constructor
  · intro found
    obtain ⟨lists, each, same⟩ := preludes_eq_ok_iff.mp found
    exact ⟨⟨_, found⟩, (flatMap_given each).2.mp same.symm⟩
  · rintro ⟨⟨listed, found⟩, straight⟩
    obtain ⟨lists, each, rfl⟩ := preludes_eq_ok_iff.mp found
    rw [found, (flatMap_given each).2.mpr straight]

/-- Reading fails at a directory only where a path misleads to one. -/
theorem misleads_of_source {list : List Prelude} {next : Prelude}
    (listed : t.preludesAt (.path root) = .ok list) (member : next ∈ list)
    (failed : next.source t = .error .isDirectory) :
    ∃ entry, t.Misleads root entry ∧ t.isDirectory entry = true := by
  cases leads : t.locate root with
  | error reason => cases reason <;> simp_all [preludesAt]
  | ok l =>
      simp only [preludesAt, leads] at listed
      split at listed
      · rename_i directory
        cases listed
        obtain ⟨name, inside, rfl⟩ := List.mem_map.mp member
        obtain ⟨source, _⟩ := mem_sourcesIn_iff.mp inside
        obtain ⟨k, further, noFile, _, inner⟩ := readText_eq_isDirectory_iff.mp failed
        cases locate_child leads (source.ne_of_length (by decide)) further
        exact ⟨_, ⟨l, name, leads, directory, source, rfl, .inl inner, noFile⟩, inner⟩
      · split at listed
        · rename_i file
          cases listed
          cases List.mem_singleton.mp member
          obtain ⟨k, leads', noFile, _⟩ := readText_eq_isDirectory_iff.mp failed
          cases leads.symm.trans leads'
          rw [file] at noFile
          contradiction
        · cases listed
          contradiction

theorem exists_misleads_of_source {v : Variables} {listed : List Prelude} {next : Prelude}
    (found : t.preludes v = .ok listed) (member : next ∈ listed)
    (failed : next.source t = .error .isDirectory) : ∃ root entry,
      .path root ∈ v.preludeRoots ∧ t.Misleads root entry ∧ t.isDirectory entry = true := by
  obtain ⟨lists, each, rfl⟩ := preludes_eq_ok_iff.mp found
  obtain ⟨list, inside, here⟩ := List.mem_flatten.mp member
  obtain ⟨entry, asked, listed⟩ := exists_of_mem_forall₂ (List.Forall₂.flip each) inside
  change t.preludesAt entry = .ok list at listed
  cases entry with
  | bundled =>
      cases listed
      cases List.mem_singleton.mp here
      contradiction
  | path root =>
      obtain ⟨inner, misleads, directory⟩ := misleads_of_source listed here failed
      exact ⟨root, inner, asked, misleads, directory⟩

end FileTree

theorem Prelude.source_alike {t u : FileTree} (alike : t.Alike u) (next : Prelude) :
    next.source u = .error .isDirectory ↔ next.source t = .error .isDirectory := by
  cases next with
  | bundled => exact Iff.rfl
  | file path => exact alike.readText_eq_isDirectory_iff path

namespace Loggers

theorem deliver_alike (r : LogRecord) (now : ClockTime) (colored : Bool) (files : FileTree)
    (handlers : List Handler) : files.Alike (deliver r now colored files handlers).2 := by
  induction handlers generalizing files with
  | nil => exact .refl files
  | cons h rest ih =>
      rw [deliver]
      split
      · split
        · exact ih files
        · exact (files.append_alike _ _).trans (ih _)
      · exact ih files

theorem emit_alike (t : Loggers) (now : ClockTime) (r : LogRecord) :
    t.files.Alike (t.emit now r).2.files := by
  unfold emit
  generalize (if isBelowBase r.logger then t.handlers else []) = handlers
  dsimp only
  split
  · exact .refl _
  · split
    · exact .refl _
    · exact deliver_alike r now t.colored t.files handlers

theorem emitAll_alike (t : Loggers) (now : ClockTime) (records : List LogRecord) :
    t.files.Alike (t.emitAll now records).2.files := by
  induction records generalizing t with
  | nil => exact .refl _
  | cons r rest ih => exact (t.emit_alike now r).trans (ih _)

end Loggers

namespace Program

/-- What is logged meanwhile changes no file into a directory, and no directory into a file. -/
theorem announce_alike (p : Program) (next : Prelude) :
    p.loggers.files.Alike (p.announce next).loggers.files :=
  p.loggers.emitAll_alike p.time _

theorem load_of_unreadable {p : Program} {next : Prelude} {rest : List Prelude}
    {reason : FileError} (found : next.source (p.announce next).loggers.files = .error reason) :
    p.load (next :: rest) = (.error (.file reason), p.announce next) := by
  unfold announce at found ⊢
  simp only [load, found]

theorem exists_source_of_load {p : Program} {preludes : List Prelude}
    (failed : (p.load preludes).1 = .error (.file .isDirectory)) :
    ∃ next ∈ preludes, next.source p.loggers.files = .error .isDirectory := by
  induction preludes generalizing p with
  | nil => exact absurd failed nofun
  | cons next rest ih =>
      have alike := p.announce_alike next
      cases found : next.source (p.announce next).loggers.files with
      | error reason =>
          rw [load_of_unreadable found] at failed
          cases failed
          exact ⟨next, List.mem_cons_self, (next.source_alike alike).mp found⟩
      | ok text =>
          rcases ran : (p.announce next).session.evaluatePrelude text with ⟨outcome, session⟩
          cases outcome with
          | error e =>
              rw [load_of_error found ran] at failed
              cases failed
          | ok =>
              rw [load_of_ok found ran] at failed
              obtain ⟨later, member, source⟩ := ih failed
              exact ⟨later, List.mem_cons_of_mem next member, (later.source_alike alike).mp source⟩

theorem exists_misleads_of_loadPreludes {p : Program} {v : Variables}
    (failed : (p.loadPreludes v).1 = .error (.file .isDirectory)) :
    ∃ root entry, .path root ∈ v.preludeRoots ∧ p.loggers.files.Misleads root entry ∧
      p.loggers.files.isDirectory entry = true := by
  unfold loadPreludes at failed
  cases found : p.loggers.files.preludes v with
  | error reason =>
      obtain ⟨rfl, _⟩ := FileTree.preludes_error found
      rw [found] at failed
      cases failed
  | ok preludes =>
      rw [found] at failed
      obtain ⟨next, member, source⟩ := exists_source_of_load failed
      exact FileTree.exists_misleads_of_source found member source

end Program

/-- Each entry of the search path contributes certain preludes. All of them are listed, unless a
name is too long, and they are all that is listed if and only if, besides, no path misleads. Only
where one misleads to a directory, loading can fail because a prelude is one. -/
theorem preludes_are_those_asked_for_iff (t : FileTree) (v : Variables) :
    ∃ roots parts, (∀ others, v.Asks others ↔ others = roots) ∧
      (∀ others, List.Forall₂ t.Contributes roots others ↔ others = parts) ∧
      (t.preludes v = .ok parts.flatten ↔ ∀ root, .path root ∈ roots →
        t.locate root ≠ .error .nameTooLong ∧ ∀ entry, ¬ t.Misleads root entry) ∧
      ((∃ listed, t.preludes v = .ok listed) ↔
        ∀ root, .path root ∈ roots → t.locate root ≠ .error .nameTooLong) ∧
      (∀ listed, t.preludes v = .ok listed → parts.flatten.Sublist listed) ∧
      ∀ p : Program, p.loggers.files = t → (p.loadPreludes v).1 = .error (.file .isDirectory) →
        ∃ root entry, .path root ∈ roots ∧ t.Misleads root entry ∧ t.isDirectory entry = true := by
  refine ⟨v.preludeRoots, v.preludeRoots.map t.given, fun others => Variables.asks_iff,
    fun others => FileTree.forall₂_contributes_iff, ?_, FileTree.exists_preludes_iff, ?_, ?_⟩
  · rw [← List.flatMap_def]
    exact FileTree.preludes_eq_given_iff
  · intro listed found
    obtain ⟨lists, each, rfl⟩ := FileTree.preludes_eq_ok_iff.mp found
    exact (FileTree.flatMap_given each).1
  · rintro p rfl failed
    exact Program.exists_misleads_of_loadPreludes failed

/-- Blanks around and between the entries, a directory that holds a text that is no source and a
directory, a file with any name, and an entry that leads nowhere. -/
theorem preludes_are_those_asked_for_iff_mixed :
    let t : FileTree :=
      { files := ⟨[(["p", "b.lisp"], .empty), (["p", "a.lisp"], .empty), (["p", "c.txt"], .empty),
          (["p", "sub", "d.lisp"], .empty), (["one.txt"], .empty)]⟩ }
    let v : Variables :=
      { preludePath := some " p :one.txt: :gone", logLevel := none, recursionLimit := none }
    t.preludes v = .ok [.file (.ofString "p/a.lisp"), .file (.ofString "p/b.lisp"),
        .file (.ofString "one.txt")] ∧
      ∀ p : Program, p.loggers.files = t → (p.loadPreludes v).1 ≠ .error (.file .isDirectory) := by
  intro t v
  obtain ⟨roots, parts, asked, unique, exact, _, _, loads⟩ :=
    preludes_are_those_asked_for_iff t v
  have entries : roots =
      [.path (.ofString "p"), .path (.ofString "one.txt"), .path (.ofString "gone")] := by
    rw [Variables.asks_iff.mp ((asked roots).mpr rfl)]
    decide +kernel
  subst entries
  have leads : t.locate (.ofString "p") = .ok ["p"] := by decide +kernel
  have file (name : String) : t.isFile ["p", name] = true ↔
      name = "b.lisp" ∨ name = "a.lisp" ∨ name = "c.txt" := by
    simp [FileTree.isFile_iff, Table.keys, t]
  have inner (name : String) (directory : t.isDirectory ["p", name] = true) : name = "sub" := by
    simp [FileTree.isDirectory, FileTree.locations, Table.keys, t] at directory
    grind
  have sources (name : String) : name ∈ ["a.lisp", "b.lisp"] ↔
      NamesSource name ∧ t.isFile (["p"] ++ [name]) = true := by
    rw [List.cons_append, List.nil_append, file]
    constructor
    · intro member
      rcases List.mem_pair.mp member with rfl | rfl <;> exact ⟨by decide, by simp⟩
    · rintro ⟨source, rfl | rfl | rfl⟩
      · simp
      · simp
      · exact absurd source (by decide)
  have one : t.locate (.ofString "one.txt") = .ok ["one.txt"] := by decide +kernel
  have gone : t.locate (.ofString "gone") = .ok ["gone"] := by decide +kernel
  have nothing (l : Location) (leads : t.locate (.ofString "gone") = .ok l) :
      t.isDirectory l = false ∧ t.isFile l = false := by
    cases gone.symm.trans leads
    decide +kernel
  have contributed : List.Forall₂ t.Contributes _ [_, _, []] :=
    .cons (.directory leads (by decide +kernel) sources (by decide))
      (.cons (.file one (by decide +kernel) (by decide +kernel)) (.cons (.other nothing) .nil))
  have sound (root : Path) (member : .path root ∈ [PreludeRoot.path (.ofString "p"),
      .path (.ofString "one.txt"), .path (.ofString "gone")]) :
      t.locate root ≠ .error .nameTooLong ∧ ∀ entry, ¬ t.Misleads root entry := by
    simp only [List.mem_cons, PreludeRoot.path.injEq, List.not_mem_nil, or_false] at member
    rcases member with rfl | rfl | rfl
    · refine ⟨by simp [leads], ?_⟩
      rintro entry ⟨l, name, leads', _, source, rfl, directory | device, _⟩
      · cases leads.symm.trans leads'
        rw [inner name directory] at source
        exact absurd source (by decide)
      · contradiction
    · refine ⟨by simp [one], fun entry => FileTree.not_misleads fun l leads' => ?_⟩
      cases one.symm.trans leads'
      decide +kernel
    · refine ⟨by simp [gone], fun entry => FileTree.not_misleads fun l leads' => ?_⟩
      exact (nothing l leads').1
  rw [← (unique _).mp contributed] at exact
  refine ⟨exact.mpr sound, fun p files failed => ?_⟩
  obtain ⟨root, entry, member, misleads, _⟩ := loads p files failed
  exact (sound root member).2 entry misleads

/-- A directory that is asked for holds a file and a directory that are named as sources are. -/
theorem directory_listed_as_prelude :
    let t : FileTree :=
      { files := ⟨[(["p", "a.lisp"], .empty)]⟩, directories := [["p", "x.lisp"]] }
    let v : Variables := { preludePath := some "p", logLevel := none, recursionLimit := none }
    let p : Program := { session := Session.start 30, loggers := { files := t } }
    v.Asks [.path (.ofString "p")] ∧
      t.Contributes (.path (.ofString "p")) [.file (.ofString "p/a.lisp")] ∧
      t.preludes v = .ok [.file (.ofString "p/a.lisp"), .file (.ofString "p/x.lisp")] ∧
      (p.loadPreludes v).1 = .error (.file .isDirectory) := by
  intro t v p
  have leads : t.locate (.ofString "p") = .ok ["p"] := by decide +kernel
  have directory : t.isDirectory ["p"] = true := by decide +kernel
  have file (name : String) : t.isFile (["p"] ++ [name]) = true ↔ name = "a.lisp" := by
    simp [FileTree.isFile_iff, Table.keys, t]
  have inner (name : String) : t.isDirectory (["p"] ++ [name]) = true ↔ name = "x.lisp" := by
    simp [FileTree.isDirectory, FileTree.locations, Table.keys, t]
    grind
  have sources (name : String) :
      name ∈ ["a.lisp"] ↔ NamesSource name ∧ t.isFile (["p"] ++ [name]) = true := by
    rw [List.mem_singleton, file, iff_and_self]
    rintro rfl
    decide
  have all : t.sourcesIn ["p"] = ["a.lisp", "x.lisp"] := by
    refine (t.sourcesIn_pairwise _).eq_of_mem_iff (by decide) fun name => ?_
    have noDevice : ["p"] ++ [name] ∉ t.devices := List.not_mem_nil
    rw [FileTree.mem_sourcesIn_iff, file, inner, or_iff_left noDevice, List.mem_pair,
      and_iff_right_iff_imp]
    rintro (rfl | rfl) <;> decide
  have found : t.preludes v = .ok [.file (.ofString "p/a.lisp"), .file (.ofString "p/x.lisp")] := by
    have roots : v.preludeRoots = [.path (.ofString "p")] := by decide +kernel
    have names :
        ["a.lisp", "x.lisp"].map (fun name => Prelude.file ((Path.ofString "p").child name)) =
          [.file (.ofString "p/a.lisp"), .file (.ofString "p/x.lisp")] := by
      decide +kernel
    have listed := FileTree.preludesAt_directory leads directory
    rw [all, names] at listed
    refine FileTree.preludes_eq_ok_iff.mpr
      ⟨[[.file (.ofString "p/a.lisp"), .file (.ofString "p/x.lisp")]], ?_, rfl⟩
    rw [roots]
    exact .cons listed .nil
  refine ⟨Variables.asks_iff.mpr (by decide +kernel),
    .directory leads directory sources (by decide), found, ?_⟩
  have read : (Prelude.file (.ofString "p/a.lisp")).source t = .ok "" ∧
      (Prelude.file (.ofString "p/x.lisp")).source t = .error .isDirectory := by
    decide +kernel
  have console : p.loggers.ConsoleOnly := by
    intro _ absent
    contradiction
  have kept (next : Prelude) : (p.announce next).loggers = p.loggers :=
    Program.loggers_announce console next
  let q := p.announce (.file (.ofString "p/a.lisp"))
  have first : p.load [.file (.ofString "p/a.lisp"), .file (.ofString "p/x.lisp")] =
      q.load [.file (.ofString "p/x.lisp")] :=
    Program.load_of_ok (by rw [kept]; exact read.1) q.session.evaluatePrelude_empty
  have console' : q.loggers.ConsoleOnly := (kept _).symm ▸ console
  have second : q.load [.file (.ofString "p/x.lisp")] = (.error (.file .isDirectory), _) :=
    Program.load_of_unreadable (by rw [Program.loggers_announce console', kept]; exact read.2)
  rw [Program.loadPreludes, found]
  exact congrArg Prod.fst (first.trans second)

end MiniLisp
