import Newswire.Collection.Table

/-!
# Sets of identifiers

An `IdSet` is a finite set of identifiers, listed in order without repetition.  Sets with the same
members are equal (`IdSet.ext`), so what a set holds determines how it is written.
-/

namespace Newswire

/-- A finite set of identifiers. -/
structure IdSet where
  /-- The members, each with nothing beside it. -/
  table : Table Unit

namespace IdSet

/-- The set without members. -/
def empty : IdSet := ⟨∅⟩

instance : EmptyCollection IdSet := ⟨empty⟩

instance : Inhabited IdSet := ⟨empty⟩

/-- `id` is a member. -/
def contains (s : IdSet) (id : String) : Bool := s.table.contains id

instance : Membership String IdSet := ⟨fun s id => s.contains id = true⟩

instance (id : String) (s : IdSet) : Decidable (id ∈ s) :=
  inferInstanceAs (Decidable (s.contains id = true))

/-- The set with one more member. -/
def insert (s : IdSet) (id : String) : IdSet := ⟨s.table.insert id ()⟩

/-- The set without one member. -/
def erase (s : IdSet) (id : String) : IdSet := ⟨s.table.erase id⟩

/-- The members, in order. -/
def toList (s : IdSet) : List String := s.table.ids

/-- The set of the members of a list. -/
def ofList (ids : List String) : IdSet := ids.foldl insert ∅

/-- The members of either set. -/
def union (s t : IdSet) : IdSet := t.toList.foldl insert s

instance : Union IdSet := ⟨union⟩

/-- The set has no members. -/
def isEmpty (s : IdSet) : Bool := s.table.isEmpty

@[simp] theorem not_mem_empty (id : String) : id ∉ (∅ : IdSet) := by
  intro h
  exact Bool.false_ne_true h

theorem mem_iff {s : IdSet} {id : String} : id ∈ s ↔ s.table.get? id = some () := by
  show (s.table.get? id).isSome = true ↔ _
  cases s.table.get? id <;> simp

theorem mem_insert {s : IdSet} {id k : String} : k ∈ s.insert id ↔ k = id ∨ k ∈ s := by
  simp only [mem_iff, insert, Table.get?_insert]
  by_cases h : k = id <;> simp [h]

theorem mem_erase {s : IdSet} {id k : String} : k ∈ s.erase id ↔ k ≠ id ∧ k ∈ s := by
  simp only [mem_iff, erase, Table.get?_erase]
  by_cases h : k = id <;> simp [h]

theorem mem_toList {s : IdSet} {id : String} : id ∈ s.toList ↔ id ∈ s := by
  rw [mem_iff, ← Table.mem_entries_iff]
  simp [toList, Table.ids]
  exact ⟨fun ⟨_, h⟩ => h, fun h => ⟨(), h⟩⟩

theorem pairwise_toList (s : IdSet) : s.toList.Pairwise (· < ·) :=
  List.pairwise_map.2 s.table.sorted

theorem toList_eq_nil_iff {s : IdSet} : s.toList = [] ↔ ∀ id, id ∉ s := by
  simp only [List.eq_nil_iff_forall_not_mem, mem_toList]

theorem mem_foldl_insert {ids : List String} {s : IdSet} {k : String} :
    k ∈ ids.foldl insert s ↔ k ∈ ids ∨ k ∈ s := by
  induction ids generalizing s with
  | nil => simp
  | cons id rest ih =>
    simp only [List.foldl_cons, ih, mem_insert, List.mem_cons]
    grind

theorem mem_ofList {ids : List String} {k : String} : k ∈ ofList ids ↔ k ∈ ids := by
  simp [ofList, mem_foldl_insert]

theorem mem_union {s t : IdSet} {k : String} : k ∈ s ∪ t ↔ k ∈ s ∨ k ∈ t := by
  show k ∈ t.toList.foldl insert s ↔ _
  rw [mem_foldl_insert, mem_toList, Or.comm]

@[ext] theorem ext {s t : IdSet} (h : ∀ id, id ∈ s ↔ id ∈ t) : s = t := by
  obtain ⟨s⟩ := s
  obtain ⟨t⟩ := t
  congr 1
  refine Table.ext fun id => ?_
  have := h id
  rw [mem_iff, mem_iff] at this
  cases hs : s.get? id <;> cases ht : t.get? id <;> simp_all

theorem isEmpty_iff {s : IdSet} : s.isEmpty = true ↔ ∀ id, id ∉ s := by
  constructor
  · intro h id hid
    have := mem_toList.2 hid
    simp [toList, Table.ids, show s.table.entries = [] by simpa [isEmpty, Table.isEmpty] using h]
      at this
  · intro h
    have hs : s = ∅ := ext fun id => by simp [h id]
    subst hs
    rfl

end IdSet

end Newswire
