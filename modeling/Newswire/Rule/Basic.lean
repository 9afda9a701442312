import Newswire.Collection.IdSet
import Newswire.Rule.Condition
import Newswire.Timestamp

/-!
# Rules

A rule selects items.  It is a disjunction of clauses, and a clause is the conjunction of saved
conditions and of other saved rules, its parents, all named by identifier.
-/

namespace Newswire

/-- A conjunction of conditions and parent rules. -/
structure Clause where
  /-- The conditions that have to hold. -/
  conditions : IdSet
  /-- The rules that have to hold. -/
  parents : IdSet

/-- A clause demands nothing. -/
def Clause.isEmpty (c : Clause) : Bool := c.conditions.isEmpty && c.parents.isEmpty

/-- A disjunction of clauses. -/
structure Rule where
  /-- Identifier; empty for a rule that is not saved. -/
  id : String
  /-- Name for people. -/
  name : String
  /-- The clauses of which one has to hold. -/
  clauses : List Clause
  /-- How often the rule was saved, counted in 64 bits. -/
  revision : UInt64
  /-- When it was first saved. -/
  createdAt : Timestamp
  /-- When it was last saved. -/
  updatedAt : Timestamp

namespace Rule

/-- A rule that has never been saved. -/
def new (now : Timestamp) (id name : String) (clauses : List Clause) : Rule :=
  ⟨id, name, clauses, 0, now, now⟩

/-- The conditions that some clause names. -/
def conditionIds (r : Rule) : IdSet :=
  r.clauses.foldl (fun ids c => ids ∪ c.conditions) ∅

/-- The parents that some clause names. -/
def parentIds (r : Rule) : IdSet :=
  r.clauses.foldl (fun ids c => ids ∪ c.parents) ∅

theorem mem_foldl_union {α : Type} {f : α → IdSet} {xs : List α} {s : IdSet} {id : String} :
    id ∈ xs.foldl (fun ids x => ids ∪ f x) s ↔ id ∈ s ∨ ∃ x ∈ xs, id ∈ f x := by
  induction xs generalizing s with
  | nil => simp
  | cons x xs ih => simp [ih, IdSet.mem_union, or_assoc]

theorem mem_conditionIds {r : Rule} {id : String} :
    id ∈ r.conditionIds ↔ ∃ c ∈ r.clauses, id ∈ c.conditions := by
  simp [conditionIds, mem_foldl_union]

theorem mem_parentIds {r : Rule} {id : String} :
    id ∈ r.parentIds ↔ ∃ c ∈ r.clauses, id ∈ c.parents := by
  simp [parentIds, mem_foldl_union]

end Rule

end Newswire
