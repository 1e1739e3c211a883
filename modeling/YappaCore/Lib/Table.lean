import Mathlib.Data.List.AList

/-!
Finite tables with one value for each key, as concurrent hash maps hold them, over
`AList`: the two ways a value is updated in place, `upsert` (through an entry that is
made when missing) and `alter` (only where there is one), what a lookup finds after
each, and the removal of a list of keys.
-/

namespace Lib

/-- A finite table. -/
abbrev Table (κ V : Type) := AList fun _ : κ => V

namespace Table

variable {κ V : Type} [DecidableEq κ]

/-- Update the value at a key, starting from `default` when there is none. -/
def upsert (key : κ) (default : V) (f : V → V) (table : Table κ V) : Table κ V :=
  table.insert key (f ((table.lookup key).getD default))

/-- Update the value at a key, if there is one. -/
def alter (key : κ) (f : V → V) (table : Table κ V) : Table κ V :=
  match table.lookup key with
  | some value => table.insert key (f value)
  | none => table

/-- Remove the keys of a list. -/
def eraseAll (keys : List κ) (table : Table κ V) : Table κ V :=
  keys.foldl (fun table key => table.erase key) table

variable (key key' : κ) (table : Table κ V)

theorem lookup_insert_eq (value : V) : (table.insert key value).lookup key' =
    if key' = key then some value else table.lookup key' := by
  by_cases same : key' = key
  · subst same
    rw [if_pos rfl, AList.lookup_insert]
  · rw [if_neg same, AList.lookup_insert_ne same]

theorem lookup_erase_eq : (table.erase key).lookup key' =
    if key' = key then none else table.lookup key' := by
  by_cases same : key' = key
  · subst same
    rw [if_pos rfl, AList.lookup_erase]
  · rw [if_neg same, AList.lookup_erase_ne same]

theorem lookup_upsert (default : V) (f : V → V) : (table.upsert key default f).lookup key' =
    if key' = key then some (f ((table.lookup key).getD default)) else table.lookup key' :=
  lookup_insert_eq key key' table _

theorem lookup_alter (f : V → V) : (table.alter key f).lookup key' =
    if key' = key then (table.lookup key).map f else table.lookup key' := by
  unfold alter
  cases found : table.lookup key with
  | some value => exact lookup_insert_eq key key' table (f value)
  | none =>
      by_cases same : key' = key
      · rw [if_pos same, same, found]
        rfl
      · rw [if_neg same]

theorem lookup_eraseAll (keys : List κ) : (table.eraseAll keys).lookup key' =
    if key' ∈ keys then none else table.lookup key' := by
  unfold eraseAll
  induction keys generalizing table with
  | nil => simp
  | cons first rest ih =>
      rw [List.foldl_cons, ih, lookup_erase_eq]
      by_cases later : key' ∈ rest
      · simp [later]
      · by_cases now : key' = first <;> simp [later, now]

/-- A missing inner table is read as an empty one. -/
theorem lookup_getD (inner : Option (Table κ V)) :
    (inner.getD ∅).lookup key = inner.bind fun table => table.lookup key := by
  cases inner with
  | none => exact AList.lookup_empty key
  | some table => rfl

/-- A table without entries finds nothing. -/
theorem lookup_of_isEmpty (empty : table.entries.isEmpty = true) : table.lookup key = none := by
  have none : table.entries = [] := List.isEmpty_iff.mp empty
  have nothing : table = ∅ := AList.ext none
  rw [nothing, AList.lookup_empty]

/-- The entries are what lookups find. -/
theorem mem_entries_iff {value : V} :
    (⟨key, value⟩ : (_ : κ) × V) ∈ table.entries ↔ table.lookup key = some value :=
  AList.mem_lookup_iff.symm

end Table

end Lib
