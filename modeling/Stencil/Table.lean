import Stencil.Text.Basic

/-!
# Tables

Finite maps from texts, such as the names of a scope or of a library. A table is used through
`get?` only: the order of its entries means nothing.
-/

namespace Stencil

/-- A finite map from texts: a list of entries of which no two have the same key. -/
structure Table (α : Type) where
  entries : List (Text × α)
  nodup : (entries.map Prod.fst).Nodup := by simp

namespace Table

variable {α : Type}

def empty : Table α := ⟨[], by simp⟩

instance : EmptyCollection (Table α) := ⟨empty⟩

/-- The value of a key. -/
def get? (table : Table α) (key : Text) : Option α := table.entries.lookup key

def contains (table : Table α) (key : Text) : Bool := (table.get? key).isSome

def size (table : Table α) : Nat := table.entries.length

def isEmpty (table : Table α) : Bool := table.entries.isEmpty

/-- The table in which `key` has `value` and all other keys are as before. -/
def insert (table : Table α) (key : Text) (value : α) : Table α where
  entries := (key, value) :: table.entries.filter (·.1 != key)
  nodup := by
    rw [List.map_cons, List.nodup_cons]
    constructor
    · simp
    · exact table.nodup.sublist ((List.filter_sublist).map Prod.fst)

/-- The table of a list of entries; of several with one key the last one counts. -/
def ofList (entries : List (Text × α)) : Table α :=
  entries.foldl (fun table entry => table.insert entry.1 entry.2) empty

@[simp] theorem get?_empty (key : Text) : (empty : Table α).get? key = none := rfl

private theorem lookup_filter_ne {key other : Text} (h : other ≠ key)
    (entries : List (Text × α)) :
    (entries.filter (·.1 != key)).lookup other = entries.lookup other := by
  induction entries with
  | nil => rfl
  | cons entry entries ih =>
    obtain ⟨k, v⟩ := entry
    by_cases hk : k = key
    · subst hk
      have : (other == k) = false := by simpa using h
      simp [List.lookup_cons, this, ih]
    · simp [List.lookup_cons, hk, ih]

/-- Only the inserted key changes. -/
theorem get?_insert (table : Table α) (key other : Text) (value : α) :
    (table.insert key value).get? other = if other = key then some value else table.get? other := by
  unfold get? insert
  by_cases h : other = key
  · simp [h]
  · have : (other == key) = false := by simpa using h
    simp [List.lookup_cons, this, h, lookup_filter_ne h]

end Table

end Stencil
