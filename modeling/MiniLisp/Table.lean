namespace MiniLisp

/-- A table lists its keys in the order in which they were first inserted. -/
structure Table (κ α : Type) where
  entries : List (κ × α) := []

namespace Table

variable {κ α : Type}

def keys (t : Table κ α) : List κ :=
  t.entries.map Prod.fst

def size (t : Table κ α) : Nat :=
  t.entries.length

variable [DecidableEq κ]

def insertEntry (key : κ) (value : α) : List (κ × α) → List (κ × α)
  | [] => [(key, value)]
  | (k, v) :: rest => if k = key then (k, value) :: rest else (k, v) :: insertEntry key value rest

/-- Writing to a key that is present replaces its value and moves nothing. -/
def insert (t : Table κ α) (key : κ) (value : α) : Table κ α :=
  ⟨insertEntry key value t.entries⟩

def find? (t : Table κ α) (key : κ) : Option α :=
  (t.entries.find? (·.1 = key)).map Prod.snd

def contains (t : Table κ α) (key : κ) : Bool :=
  (t.find? key).isSome

def erase (t : Table κ α) (key : κ) : Table κ α :=
  ⟨t.entries.filter (·.1 ≠ key)⟩

/-- The table after inserting the entries one after the other. -/
def ofList (entries : List (κ × α)) : Table κ α :=
  entries.foldl (fun t entry => t.insert entry.1 entry.2) {}

theorem find?_insert (t : Table κ α) (key other : κ) (value : α) :
    (t.insert key value).find? other = if other = key then some value else t.find? other := by
  simp only [insert, find?]
  induction t.entries with
  | nil => by_cases same : key = other <;> simp [insertEntry, same, eq_comm]
  | cons entry rest ih =>
    obtain ⟨k, v⟩ := entry
    by_cases here : k = key
    · by_cases same : key = other <;> simp [insertEntry, here, same, eq_comm]
    · by_cases same : k = other
      · have apart : other ≠ key := same ▸ here
        simp [insertEntry, same, apart]
      · simp [insertEntry, here, same, ih]

theorem keys_insertEntry (key : κ) (value : α) (entries : List (κ × α)) :
    (insertEntry key value entries).map Prod.fst =
      if key ∈ entries.map Prod.fst then entries.map Prod.fst
      else entries.map Prod.fst ++ [key] := by
  induction entries with
  | nil => simp [insertEntry]
  | cons entry rest ih =>
    obtain ⟨k, v⟩ := entry
    by_cases here : k = key
    · simp [insertEntry, here]
    · have apart : key ≠ k := fun same => here same.symm
      by_cases later : key ∈ rest.map Prod.fst <;> simp_all [insertEntry]

/-- A new key comes last, a key that is present stays where it is. -/
theorem keys_insert (t : Table κ α) (key : κ) (value : α) :
    (t.insert key value).keys = if key ∈ t.keys then t.keys else t.keys ++ [key] :=
  keys_insertEntry key value t.entries

end Table

end MiniLisp
