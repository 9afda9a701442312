import Newswire.Collection.Keyed

/-!
# Tables

A `Table` holds at most one value for every identifier, listed in the order of the identifiers.
Every operation is described by what it does to `Table.get?`, and tables with the same look-ups
are equal (`Table.ext`).
-/

namespace Newswire

universe u v

/-- Values by identifier. -/
structure Table (α : Type u) where
  /-- The identifiers with their values. -/
  entries : List (String × α)
  /-- The identifiers are strictly increasing. -/
  sorted : Keyed.Sorted entries

namespace Table

variable {α : Type u} {β : Type v}

/-- The table without values. -/
def empty : Table α := ⟨[], List.Pairwise.nil⟩

instance : EmptyCollection (Table α) := ⟨empty⟩

instance : Inhabited (Table α) := ⟨empty⟩

/-- The value of an identifier. -/
def get? (t : Table α) (id : String) : Option α := t.entries.lookup id

/-- An identifier has a value. -/
def contains (t : Table α) (id : String) : Bool := (t.get? id).isSome

/-- Give an identifier a value, in place of the one it has. -/
def insert (t : Table α) (id : String) (value : α) : Table α :=
  ⟨Keyed.insert id value t.entries, Keyed.sorted_insert t.sorted⟩

/-- Take the value of an identifier away. -/
def erase (t : Table α) (id : String) : Table α :=
  ⟨Keyed.erase id t.entries, Keyed.sorted_erase t.sorted⟩

/-- The identifiers with a value, in order. -/
def ids (t : Table α) : List String := t.entries.map (·.1)

/-- The values in the order of their identifiers. -/
def values (t : Table α) : List α := t.entries.map (·.2)

/-- How many identifiers have a value. -/
def size (t : Table α) : Nat := t.entries.length

/-- No identifier has a value. -/
def isEmpty (t : Table α) : Bool := t.entries.isEmpty

@[simp] theorem get?_empty (id : String) : (∅ : Table α).get? id = none := rfl

theorem get?_insert (t : Table α) (id k : String) (value : α) :
    (t.insert id value).get? k = if k = id then some value else t.get? k :=
  Keyed.lookup_insert id k value t.entries

@[simp] theorem get?_insert_self (t : Table α) (id : String) (value : α) :
    (t.insert id value).get? id = some value := by simp [get?_insert]

theorem get?_erase (t : Table α) (id k : String) :
    (t.erase id).get? k = if k = id then none else t.get? k :=
  Keyed.lookup_erase id k t.entries

@[simp] theorem get?_erase_self (t : Table α) (id : String) : (t.erase id).get? id = none := by
  simp [get?_erase]

theorem get?_insert_eq_some_iff {t : Table α} {id k : String} {value w : α} :
    (t.insert id value).get? k = some w ↔
      (k = id ∧ value = w) ∨ (k ≠ id ∧ t.get? k = some w) := by
  by_cases h : k = id <;> simp [get?_insert, h]

/-- Nothing that has a value loses it when another value is put in. -/
theorem exists_get?_insert {t : Table α} {id k : String} (value : α)
    (h : ∃ w, t.get? k = some w) : ∃ w, (t.insert id value).get? k = some w := by
  obtain ⟨w, hw⟩ := h
  by_cases hk : k = id
  · exact ⟨value, get?_insert_eq_some_iff.2 (Or.inl ⟨hk, rfl⟩)⟩
  · exact ⟨w, get?_insert_eq_some_iff.2 (Or.inr ⟨hk, hw⟩)⟩

theorem get?_erase_eq_some_iff {t : Table α} {id k : String} {w : α} :
    (t.erase id).get? k = some w ↔ k ≠ id ∧ t.get? k = some w := by
  by_cases h : k = id <;> simp [get?_erase, h]

theorem mem_entries_iff {t : Table α} {id : String} {value : α} :
    (id, value) ∈ t.entries ↔ t.get? id = some value :=
  ⟨Keyed.lookup_of_mem t.sorted, Keyed.mem_of_lookup⟩

theorem mem_values_iff {t : Table α} {value : α} :
    value ∈ t.values ↔ ∃ id, t.get? id = some value := by
  simp [values, mem_entries_iff]

theorem mem_values_of_get? {t : Table α} {id : String} {value : α} (h : t.get? id = some value) :
    value ∈ t.values :=
  mem_values_iff.2 ⟨id, h⟩

theorem contains_iff {t : Table α} {id : String} : t.contains id = true ↔ ∃ v, t.get? id = some v :=
  Option.isSome_iff_exists

theorem not_contains_eq_false_iff {t : Table α} {id : String} :
    (!t.contains id) = false ↔ ∃ v, t.get? id = some v := by
  rw [Bool.not_eq_false', contains_iff]

@[ext] theorem ext {s t : Table α} (h : ∀ id, s.get? id = t.get? id) : s = t := by
  obtain ⟨xs, hx⟩ := s
  obtain ⟨ys, hy⟩ := t
  have : xs = ys := Keyed.ext hx hy h
  subst this
  rfl

end Table

end Newswire
