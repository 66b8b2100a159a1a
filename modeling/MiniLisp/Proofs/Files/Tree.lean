import Mathlib.Data.List.Sort
import Mathlib.Data.String.Basic
import MiniLisp.Files.Tree
import MiniLisp.Proofs.Table

namespace MiniLisp.FileTree

variable {t u : FileTree} {l : Location} {name : String} {p : Path}

theorem isFile_iff : t.isFile l = true ↔ l ∈ t.files.keys :=
  Table.mem_keys_iff.symm

theorem mem_names_iff_exists : name ∈ t.names l ↔ ∃ k ∈ t.locations, l ++ [name] <+: k := by
  have below (k : Location) :
      (if l.isPrefixOf k then (k.drop l.length).head? else none) = some name ↔
        l ++ [name] <+: k := by
    constructor
    · intro found
      split at found
      · rename_i inside
        obtain ⟨rest, rfl⟩ := List.isPrefixOf_iff_prefix.mp inside
        rw [List.drop_left] at found
        obtain ⟨later, rfl⟩ := List.head?_eq_some_iff.mp found
        exact ⟨later, List.append_assoc l [name] later⟩
      · contradiction
    · rintro ⟨rest, rfl⟩
      rw [List.append_assoc, if_pos (List.isPrefixOf_iff_prefix.mpr ⟨_, rfl⟩), List.drop_left]
      rfl
  simp only [names, List.mem_mergeSort, List.mem_eraseDups, List.mem_filterMap, below]

/-- A directory is listed with the files, the directories and the devices in it. -/
theorem mem_names_iff (noParent : name ≠ "..") (noRoot : name ≠ "/") : name ∈ t.names l ↔
    t.isFile (l ++ [name]) = true ∨ t.isDirectory (l ++ [name]) = true ∨
      l ++ [name] ∈ t.devices := by
  have notUp : ¬ (l ++ [name]).all (· = "..") := by simp [noParent]
  have notTop : l ++ [name] ≠ ["/"] := by
    intro top
    have last := congrArg List.getLast? top
    rw [List.getLast?_concat] at last
    exact noRoot (Option.some.inj last)
  have directory : t.isDirectory (l ++ [name]) = true ↔
      l ++ [name] ∈ t.directories ∨ ∃ k ∈ t.locations, l ++ [name] <+: k ∧ k ≠ l ++ [name] := by
    simp only [isDirectory, notUp, notTop, Bool.or_eq_true, decide_eq_true_eq, false_or,
      List.contains_iff_mem, List.any_eq_true, Bool.and_eq_true, List.isPrefixOf_iff_prefix,
      Bool.false_eq_true]
  have known : l ++ [name] ∈ t.locations ↔
      l ++ [name] ∈ t.files.keys ∨ l ++ [name] ∈ t.directories ∨ l ++ [name] ∈ t.devices := by
    rw [locations, List.mem_append, List.mem_append, or_assoc]
  have within : (∃ k ∈ t.locations, l ++ [name] <+: k) ↔ l ++ [name] ∈ t.locations ∨
      ∃ k ∈ t.locations, l ++ [name] <+: k ∧ k ≠ l ++ [name] := by
    constructor
    · rintro ⟨k, member, within⟩
      by_cases same : k = l ++ [name]
      · exact .inl (same ▸ member)
      · exact .inr ⟨k, member, within, same⟩
    · rintro (here | ⟨k, member, within, _⟩)
      · exact ⟨_, here, List.prefix_refl _⟩
      · exact ⟨k, member, within⟩
  rw [mem_names_iff_exists, within, known, directory, isFile_iff]
  simp only [or_assoc, or_comm (a := l ++ [name] ∈ t.devices)]

theorem nodup_eraseDups {α : Type} [DecidableEq α] (items : List α) : items.eraseDups.Nodup := by
  have keys := Table.keys_ofList (items.map fun item => (item, ()))
  rw [List.map_map, show Prod.fst ∘ (fun item : α => (item, ())) = id from rfl, List.map_id] at keys
  exact keys ▸ Table.nodup_keys_ofList _

/-- The names come in order, none of them twice. -/
theorem names_pairwise (t : FileTree) (l : Location) : (t.names l).Pairwise (· < ·) := by
  have different : (t.names l).Nodup :=
    (List.mergeSort_perm _ _).nodup_iff.mpr (nodup_eraseDups _)
  exact (List.sortedLE_mergeSort.sortedLT_of_nodup different).pairwise

theorem follow_append (t : FileTree) (here parts rest : List String) :
    t.follow here (parts ++ rest) = t.follow here parts >>= fun l => t.follow l.reverse rest := by
  induction parts generalizing here with
  | nil =>
      change _ = t.follow here.reverse.reverse rest
      rw [List.reverse_reverse, List.nil_append]
  | cons part parts ih =>
      rw [List.cons_append, follow, follow]
      split
      · rfl
      · split
        · exact ih _
        · split
          · rfl
          · exact ih _

theorem follow_error_ne (here parts : List String) : t.follow here parts ≠ .error .isDirectory := by
  induction parts generalizing here with
  | nil => exact nofun
  | cons part parts ih =>
      rw [follow]
      split
      · split <;> exact nofun
      · split
        · exact ih _
        · split
          · exact nofun
          · exact ih _

theorem locate_eq_ok_iff : t.locate p = .ok l ↔
    checkText p.text = .ok () ∧ t.follow (origin p) p.parts = .ok l := by
  unfold locate
  cases checkText p.text with
  | error e => exact iff_of_false nofun fun both => nomatch both.1
  | ok => exact (and_iff_right rfl).symm

theorem locate_error_ne : t.locate p ≠ .error .isDirectory := by
  unfold locate checkText
  split
  · exact nofun
  · split
    · exact nofun
    · exact follow_error_ne _ _

/-- What lies in the place that a path leads to is found where the path with its name leads to. -/
theorem locate_child {k : Location} (leads : t.locate p = .ok l) (plain : name ≠ "..")
    (further : t.locate (p.child name) = .ok k) : k = l ++ [name] := by
  have within : t.follow (origin p) (p.parts ++ [name]) = .ok k := (locate_eq_ok_iff.mp further).2
  rw [follow_append, (locate_eq_ok_iff.mp leads).2] at within
  change t.follow l.reverse [name] = _ at within
  simp only [follow, plain, if_false] at within
  split at within
  · contradiction
  · split at within
    · contradiction
    · simpa using (Except.ok.inj within).symm

/-- Reading fails so where a path leads to a directory. -/
theorem readText_eq_isDirectory_iff : t.readText p = .error .isDirectory ↔
    ∃ l, t.locate p = .ok l ∧ t.isFile l = false ∧ l ∉ t.devices ∧ t.isDirectory l = true := by
  unfold readText
  cases located : t.locate p with
  | error reason =>
      refine iff_of_false (fun same => ?_) (by simp)
      cases same
      exact locate_error_ne located
  | ok l =>
      simp only [Except.ok.injEq, exists_eq_left', isFile, Table.contains]
      cases t.files.find? l with
      | some bytes =>
          cases decoded : String.fromUTF8? bytes <;> simp [decoded]
      | none =>
          by_cases device : l ∈ t.devices
          · simp [device]
          · cases t.isDirectory l <;> simp [device]

/-- The trees are the same but for what the files hold. -/
structure Alike (t u : FileTree) : Prop where
  keys : u.files.keys = t.files.keys
  directories : u.directories = t.directories
  devices : u.devices = t.devices

namespace Alike

theorem refl (t : FileTree) : Alike t t :=
  ⟨rfl, rfl, rfl⟩

theorem trans {w : FileTree} (first : Alike t u) (second : Alike u w) : Alike t w :=
  ⟨second.keys.trans first.keys, second.directories.trans first.directories,
    second.devices.trans first.devices⟩

variable (alike : Alike t u)
include alike

theorem isFile (l : Location) : u.isFile l = t.isFile l := by
  rw [Bool.eq_iff_iff, isFile_iff, isFile_iff, alike.keys]

theorem isDirectory (l : Location) : u.isDirectory l = t.isDirectory l := by
  simp only [FileTree.isDirectory, locations, alike.keys, alike.directories, alike.devices]

theorem follow (here parts : List String) : u.follow here parts = t.follow here parts := by
  induction parts generalizing here with
  | nil => rfl
  | cons part parts ih =>
      simp only [FileTree.follow, alike.isDirectory, alike.isFile, alike.devices, ih]

theorem readText_eq_isDirectory_iff (p : Path) :
    u.readText p = .error .isDirectory ↔ t.readText p = .error .isDirectory := by
  simp only [FileTree.readText_eq_isDirectory_iff, locate, alike.follow, alike.isFile,
    alike.isDirectory, alike.devices]

end Alike

theorem append_alike (t : FileTree) (l : Location) (text : String) : Alike t (t.append l text) := by
  unfold append
  split
  · rename_i before found
    have present : l ∈ t.files.keys := Table.mem_keys_iff.mpr (Option.isSome_of_eq_some found)
    exact ⟨by rw [Table.keys_insert, if_pos present], rfl, rfl⟩
  · exact .refl t

end MiniLisp.FileTree
