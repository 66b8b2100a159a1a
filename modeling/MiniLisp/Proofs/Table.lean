import Mathlib.Data.List.Forall2
import Mathlib.Data.List.Induction
import MiniLisp.Table

namespace MiniLisp

namespace Table

variable {κ α : Type} [DecidableEq κ] {key k : κ} {value v : α}

theorem mem_insertEntry {entries : List (κ × α)}
    (member : (k, v) ∈ insertEntry key value entries) :
    k = key ∧ v = value ∨ (k, v) ∈ entries := by
  induction entries with
  | nil =>
      cases List.mem_singleton.mp member
      exact .inl ⟨rfl, rfl⟩
  | cons entry rest ih =>
      unfold insertEntry at member
      split at member
      · rename_i same
        rcases List.mem_cons.mp member with here | later
        · cases here
          exact .inl ⟨same, rfl⟩
        · exact .inr (List.mem_cons_of_mem entry later)
      · rcases List.mem_cons.mp member with here | later
        · exact .inr (here ▸ List.mem_cons_self)
        · exact (ih later).imp_right (List.mem_cons_of_mem entry)

theorem mem_insert {t : Table κ α} (member : (k, v) ∈ (t.insert key value).entries) :
    k = key ∧ v = value ∨ (k, v) ∈ t.entries :=
  mem_insertEntry member

theorem mem_ofList {entries : List (κ × α)} (member : (k, v) ∈ (ofList entries).entries) :
    (k, v) ∈ entries := by
  refine List.foldlRecOn (motive := fun t : Table κ α => (k, v) ∈ t.entries → (k, v) ∈ entries)
    entries _ List.not_mem_nil.elim ?_ member
  intro t before entry inside member
  obtain ⟨rfl, rfl⟩ | old := mem_insert member
  · exact inside
  · exact before old

theorem mem_of_find? {t : Table κ α} (found : t.find? key = some value) :
    (key, value) ∈ t.entries := by
  obtain ⟨entry, first, rfl⟩ := Option.map_eq_some_iff.mp found
  have same : entry.1 = key := by simpa using List.find?_some first
  exact same ▸ List.mem_of_find?_eq_some first

theorem ofList_concat (entries : List (κ × α)) (key : κ) (value : α) :
    ofList (entries ++ [(key, value)]) = (ofList entries).insert key value :=
  List.foldl_concat _ _ _ _

theorem isSome_find?_ofList {entries : List (κ × α)} {key : κ} :
    ((ofList entries).find? key).isSome ↔ key ∈ entries.map Prod.fst := by
  induction entries using List.reverseRecOn with
  | nil => simp [ofList, find?]
  | append_singleton entries entry ih =>
      rw [ofList_concat, find?_insert, List.map_append, List.mem_append, ← ih]
      split <;> simp_all

/-- Keys are listed in the order in which they first came. -/
theorem keys_ofList (entries : List (κ × α)) :
    (ofList entries).keys = (entries.map Prod.fst).eraseDups := by
  induction entries using List.reverseRecOn with
  | nil => rfl
  | append_singleton entries entry ih =>
      have listed : entry.1 ∈ (ofList entries).keys ↔ entry.1 ∈ entries.map Prod.fst := by
        rw [ih, List.mem_eraseDups]
      rw [ofList_concat, keys_insert, List.map_append, List.eraseDups_append, ← ih]
      by_cases present : entry.1 ∈ entries.map Prod.fst
      · rw [if_pos (listed.mpr present)]
        simp [List.removeAll, present]
      · rw [if_neg (mt listed.mp present)]
        simp [List.removeAll, present, List.eraseDups_cons]

theorem find?_ofList (entries : List (κ × α)) (key : κ) :
    (ofList entries).find? key = (entries.reverse.find? (·.1 = key)).map Prod.snd := by
  induction entries using List.reverseRecOn with
  | nil => rfl
  | append_singleton entries entry ih =>
      rw [ofList_concat, find?_insert, ih, List.reverse_concat, List.find?_cons]
      by_cases here : entry.1 = key
      · simp [here]
      · simp [here, Ne.symm here]

/-- The last value of a key is the one that is found. -/
theorem find?_ofList_append {before after : List (κ × α)} (last : key ∉ after.map Prod.fst) :
    (ofList (before ++ (key, value) :: after)).find? key = some value := by
  have later : after.reverse.find? (·.1 = key) = none := by
    refine List.find?_eq_none.mpr fun entry member same => last ?_
    exact List.mem_map.mpr ⟨entry, List.mem_reverse.mp member, of_decide_eq_true same⟩
  simp [find?_ofList, later]

/-- Tables with the same keys and related values, one after the other, have related values. -/
theorem rel_find?_ofList {β : Type} {R : α → β → Prop} {keys : List κ} {values : List α}
    {others : List β} (related : List.Forall₂ R values others) (key : κ) :
    Option.Rel R ((ofList (keys.zip values)).find? key) ((ofList (keys.zip others)).find? key) := by
  suffices folded : ∀ {t : Table κ α} {t' : Table κ β},
      Option.Rel R (t.find? key) (t'.find? key) →
        Option.Rel R (((keys.zip values).foldl (fun t e => t.insert e.1 e.2) t).find? key)
          (((keys.zip others).foldl (fun t e => t.insert e.1 e.2) t').find? key) from folded .none
  induction related generalizing keys with
  | nil => simp
  | cons same _ ih =>
      intro t t' before
      cases keys with
      | nil => simpa
      | cons k keys =>
          refine ih ?_
          rw [find?_insert, find?_insert]
          split
          · exact .some same
          · exact before

theorem find?_erase (t : Table κ α) (key other : κ) :
    (t.erase key).find? other = if other = key then none else t.find? other := by
  simp only [erase, find?, List.find?_filter]
  split
  · rename_i same
    subst same
    simp
  · rename_i different
    congr 2
    funext e
    by_cases here : e.1 = other <;> simp [here, different]

theorem keys_erase (t : Table κ α) (key : κ) : (t.erase key).keys = t.keys.filter (· ≠ key) := by
  simp [keys, erase, List.filter_map, Function.comp_def]

theorem mem_keys_iff {t : Table κ α} : key ∈ t.keys ↔ (t.find? key).isSome := by
  simp [keys, find?]

theorem nodup_keys_insert {t : Table κ α} (nodup : t.keys.Nodup) (key : κ) (value : α) :
    (t.insert key value).keys.Nodup := by
  rw [keys_insert]
  split
  · exact nodup
  · rename_i absent
    refine List.nodup_append.mpr ⟨nodup, by simp, fun k member _ last => ?_⟩
    cases List.mem_singleton.mp last
    exact fun same => absent (same ▸ member)

theorem nodup_keys_erase {t : Table κ α} (nodup : t.keys.Nodup) (key : κ) :
    (t.erase key).keys.Nodup := by
  rw [keys_erase]
  exact List.Pairwise.filter _ nodup

theorem nodup_keys_ofList (entries : List (κ × α)) : (ofList entries).keys.Nodup := by
  induction entries using List.reverseRecOn with
  | nil => exact List.nodup_nil
  | append_singleton entries entry ih =>
      rw [ofList_concat]
      exact nodup_keys_insert ih _ _

theorem find?_cons (entry : κ × α) (rest : List (κ × α)) (key : κ) :
    (Table.mk (entry :: rest)).find? key =
      if entry.1 = key then some entry.2 else (Table.mk rest).find? key := by
  by_cases here : entry.1 = key <;> simp [find?, here]

/-- A table is its keys with what is found under each. -/
theorem entries_eq_filterMap {t : Table κ α} (nodup : t.keys.Nodup) :
    t.entries = t.keys.filterMap fun key => (t.find? key).map (key, ·) := by
  obtain ⟨entries⟩ := t
  induction entries with
  | nil => rfl
  | cons entry rest ih =>
      obtain ⟨fresh, later⟩ := List.nodup_cons.mp nodup
      have here : (Table.mk (entry :: rest)).find? entry.1 = some entry.2 := by
        rw [find?_cons, if_pos rfl]
      have others : ∀ key ∈ (Table.mk rest).keys,
          (Table.mk (entry :: rest)).find? key = (Table.mk rest).find? key := by
        intro key member
        have other : entry.1 ≠ key := fun same => fresh (same ▸ member)
        rw [find?_cons, if_neg other]
      have listed : (Table.mk (entry :: rest)).keys = entry.1 :: (Table.mk rest).keys := rfl
      rw [listed, List.filterMap_cons, here]
      refine congrArg (entry :: ·) ((ih later).trans ?_)
      exact List.filterMap_congr fun key member => by rw [others key member]

theorem eq_of_find? {t u : Table κ α} (nodup : t.keys.Nodup) (keys : t.keys = u.keys)
    (found : ∀ key, t.find? key = u.find? key) : t = u := by
  have same : t.entries = u.entries := by
    rw [entries_eq_filterMap nodup, entries_eq_filterMap (keys ▸ nodup), keys]
    simp only [found]
  cases t
  cases u
  exact congrArg mk same

/-- The table after all entries of another one have been written to it, in their order. -/
def update (t u : Table κ α) : Table κ α :=
  u.entries.foldl (fun t entry => t.insert entry.1 entry.2) t

section

variable {t u : Table κ α}

theorem find?_update (nodup : u.keys.Nodup) (key : κ) :
    (t.update u).find? key = (u.find? key).or (t.find? key) := by
  obtain ⟨entries⟩ := u
  induction entries generalizing t with
  | nil => rfl
  | cons entry rest ih =>
      obtain ⟨fresh, later⟩ := List.nodup_cons.mp nodup
      have onward : t.update ⟨entry :: rest⟩ = (t.insert entry.1 entry.2).update ⟨rest⟩ := rfl
      rw [onward, ih later, find?_insert, find?_cons]
      by_cases here : entry.1 = key
      · subst here
        have absent : (Table.mk rest).find? entry.1 = none := by
          simpa using mt mem_keys_iff.mpr fresh
        rw [absent, if_pos rfl, if_pos rfl]
        rfl
      · rw [if_neg (Ne.symm here), if_neg here]

/-- Keys that are present keep their places, and new ones follow in their order. -/
theorem keys_update (nodup : u.keys.Nodup) :
    (t.update u).keys = t.keys ++ u.keys.filter (· ∉ t.keys) := by
  obtain ⟨entries⟩ := u
  induction entries generalizing t with
  | nil => exact (List.append_nil _).symm
  | cons entry rest ih =>
      obtain ⟨fresh, later⟩ := List.nodup_cons.mp nodup
      have onward : t.update ⟨entry :: rest⟩ = (t.insert entry.1 entry.2).update ⟨rest⟩ := rfl
      have listed : (Table.mk (entry :: rest)).keys = entry.1 :: (Table.mk rest).keys := rfl
      rw [onward, ih later, keys_insert, listed]
      by_cases present : entry.1 ∈ t.keys
      · rw [if_pos present, List.filter_cons_of_neg (by simpa using present)]
      · rw [if_neg present, List.filter_cons_of_pos (by simpa using present), List.append_assoc]
        refine congrArg (t.keys ++ entry.1 :: ·) (List.filter_congr fun key member => ?_)
        have other : key ≠ entry.1 := fun same => fresh (same ▸ member)
        simp [other]

theorem nodup_keys_update (nodup : t.keys.Nodup) (u : Table κ α) : (t.update u).keys.Nodup :=
  List.foldlRecOn (motive := fun t : Table κ α => t.keys.Nodup) u.entries _ nodup
    fun _ before entry _ => nodup_keys_insert before entry.1 entry.2

/-- The first entries are those of the table that was written to, with the values they have now. -/
theorem take_entries_update (nodup : t.keys.Nodup) (nodup' : u.keys.Nodup) :
    (t.update u).entries.take t.size =
      t.keys.filterMap fun key => ((t.update u).find? key).map (key, ·) := by
  have kept : ∀ key ∈ t.keys, (((t.update u).find? key).map (key, ·)).isSome := by
    intro key member
    rw [Option.isSome_map, ← mem_keys_iff, keys_update nodup']
    exact List.mem_append_left _ member
  have length : (t.keys.filterMap fun key => ((t.update u).find? key).map (key, ·)).length =
      t.size :=
    (List.filterMap_length_eq_length.mpr kept).trans (List.length_map _)
  rw [entries_eq_filterMap (nodup_keys_update nodup u), keys_update nodup', List.filterMap_append,
    ← length, List.take_left]

theorem update_insert (nodup : t.keys.Nodup) (nodup' : u.keys.Nodup) (key : κ) (value : α) :
    (t.update u).insert key value = t.update (u.insert key value) := by
  have grown := nodup_keys_insert nodup' key value
  refine eq_of_find? (nodup_keys_insert (nodup_keys_update nodup u) key value) ?_ fun other => ?_
  · rw [keys_insert, keys_update nodup', keys_update grown, keys_insert]
    by_cases present : key ∈ u.keys
    · have listed : key ∈ t.keys ++ u.keys.filter (· ∉ t.keys) := by
        by_cases old : key ∈ t.keys <;> simp [old, present]
      rw [if_pos listed, if_pos present]
    · rw [if_neg present, List.filter_append, ← List.append_assoc]
      by_cases old : key ∈ t.keys <;> simp [old, present]
  · rw [find?_insert, find?_update nodup', find?_update grown, find?_insert]
    split <;> rfl

/-- To insert entries after others is to insert each of their keys once, with its last value. -/
theorem ofList_append (entries others : List (κ × α)) :
    ofList (entries ++ others) = (ofList entries).update (ofList others) := by
  induction others using List.reverseRecOn with
  | nil => rw [List.append_nil]; rfl
  | append_singleton others entry ih =>
      rw [← List.append_assoc, ofList_concat, ofList_concat, ih,
        update_insert (nodup_keys_ofList _) (nodup_keys_ofList _)]

end

section

variable {κ κ' α β : Type}

/-- Maps keys and values, each in its place. As long as different keys stay different, this commutes
with every operation on tables. -/
def map (f : κ → κ') (g : α → β) (t : Table κ α) : Table κ' β :=
  ⟨t.entries.map (Prod.map f g)⟩

variable [DecidableEq κ] [DecidableEq κ'] {f : κ → κ'} {g : α → β}
variable (injective : Function.Injective f)
include injective

theorem map_insert (t : Table κ α) (key : κ) (value : α) :
    (t.insert key value).map f g = (t.map f g).insert (f key) (g value) := by
  obtain ⟨entries⟩ := t
  simp only [map, insert, mk.injEq]
  induction entries with
  | nil => rfl
  | cons entry rest ih =>
      obtain ⟨k, v⟩ := entry
      by_cases here : k = key
      · simp [insertEntry, here]
      · simp [insertEntry, here, injective.ne here, ih]

theorem map_ofList (entries : List (κ × α)) :
    (ofList entries).map f g = ofList (entries.map (Prod.map f g)) := by
  induction entries using List.reverseRecOn with
  | nil => rfl
  | append_singleton entries entry ih =>
      rw [ofList_concat, map_insert injective, ih, List.map_append]
      exact (ofList_concat _ _ _).symm

theorem find?_map (t : Table κ α) (key : κ) : (t.map f g).find? (f key) = (t.find? key).map g := by
  have same : ((fun entry : κ' × β => decide (entry.1 = f key)) ∘ Prod.map f g) =
      fun entry : κ × α => decide (entry.1 = key) := by
    funext entry
    simp [injective.eq_iff]
  simp only [find?, map, List.find?_map, same, Option.map_map]
  rfl

end

end Table

end MiniLisp
