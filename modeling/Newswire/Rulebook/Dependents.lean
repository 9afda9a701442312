import Newswire.Collection.Filter
import Newswire.Rule.Basic

/-!
# Who uses what

`Dependents` is the reverse of the references in a set of rules: for every condition and every
rule it holds the rules that name it.  It is kept up to date rule by rule (`register`,
`unregister`, `replace`), and `Dependents.closure` follows it to all indirect users.

No identifier is listed with an empty set of users, so the index is determined by its look-ups.
-/

namespace Newswire

/-- For each identifier the set of its users, not empty. -/
abbrev UserTable := Table IdSet

namespace UserTable

/-- The users of an identifier. -/
def users (t : UserTable) (id : String) : IdSet := (t.get? id).getD ∅

/-- Add a user of an identifier. -/
def addUser (t : UserTable) (id user : String) : UserTable :=
  t.insert id ((users t id).insert user)

/-- Take a user of an identifier away, and the identifier with its last user. -/
def removeUser (t : UserTable) (id user : String) : UserTable :=
  match t.get? id with
  | none => t
  | some s =>
    let left := s.erase user
    if left.isEmpty then t.erase id else t.insert id left

/-- How many identifiers have users and are not in a set. -/
def outside (t : UserTable) (seen : IdSet) : Nat := (t.ids.filter fun id => id ∉ seen).length

theorem outside_insert_le (t : UserTable) (seen : IdSet) (id : String) :
    outside t (seen.insert id) ≤ outside t seen :=
  length_filter_le_of_imp (fun k h => by simp_all [IdSet.mem_insert]) t.ids

theorem outside_insert_lt {t : UserTable} {seen : IdSet} {id : String} (hid : id ∈ t.ids)
    (hseen : id ∉ seen) : outside t (seen.insert id) < outside t seen :=
  length_filter_lt_of_imp (fun k h => by simp_all [IdSet.mem_insert]) hid (by simpa using hseen)
    (by simp [IdSet.mem_insert])

theorem users_of_not_mem {t : UserTable} {id : String} (h : id ∉ t.ids) : users t id = ∅ := by
  have : t.get? id = none := by
    cases hg : t.get? id with
    | none => rfl
    | some s =>
      exact absurd (List.mem_map.2 ⟨(id, s), Table.mem_entries_iff.2 hg, rfl⟩) h
  simp [users, this]

/-- What makes a search end: whenever an identifier is found, fewer with users are outside, or it
has no users to look at. -/
theorem outside_found_lt {t : UserTable} {seen : IdSet} {id : String} {rest next : List String}
    (hseen : id ∉ seen) (hnext : next.length = (users t id).toList.length) :
    Prod.Lex (· < ·) (· < ·) (outside t (seen.insert id), (rest ++ next).length)
      (outside t seen, (id :: rest).length) := by
  by_cases hmem : id ∈ t.ids
  · exact Prod.Lex.left _ _ (outside_insert_lt hmem hseen)
  · rw [users_of_not_mem hmem] at hnext
    have hnil : next = [] := List.eq_nil_of_length_eq_zero hnext
    rcases Nat.lt_or_eq_of_le (outside_insert_le t seen id) with hlt | heq
    · exact Prod.Lex.left _ _ hlt
    · rw [heq, hnil]
      exact Prod.Lex.right _ (by simp)

/-- The set `seen` with everything in the queue and its direct and indirect users, except
`origin`. -/
def spread (t : UserTable) (origin : String) (seen : IdSet) : List String → IdSet
  | [] => seen
  | id :: rest =>
    if id = origin ∨ id ∈ seen then spread t origin seen rest
    else spread t origin (seen.insert id) (rest ++ (users t id).toList)
termination_by queue => (outside t seen, queue.length)
decreasing_by
  · exact Prod.Lex.right _ (by simp)
  · next h => exact outside_found_lt (fun hseen => h (Or.inr hseen)) rfl

/-- All direct and indirect users of an identifier other than itself. -/
def closure (t : UserTable) (id : String) : IdSet := spread t id ∅ (users t id).toList

end UserTable

/-- The users of every condition and of every rule. -/
structure Dependents where
  /-- The rules that name a condition. -/
  ofCondition : UserTable
  /-- The rules that name a rule as parent. -/
  ofRule : UserTable
  deriving Inhabited

namespace Dependents

/-- Nothing is used. -/
def empty : Dependents := ⟨∅, ∅⟩

instance : EmptyCollection Dependents := ⟨empty⟩

/-- Nothing is used. -/
def isEmpty (d : Dependents) : Bool := d.ofCondition.isEmpty && d.ofRule.isEmpty

/-- Add one user to many identifiers. -/
def addAll (t : UserTable) (ids : List String) (user : String) : UserTable :=
  ids.foldl (fun t id => t.addUser id user) t

/-- Take one user from many identifiers. -/
def removeAll (t : UserTable) (ids : List String) (user : String) : UserTable :=
  ids.foldl (fun t id => t.removeUser id user) t

/-- Enter everything that a rule names. -/
def register (d : Dependents) (r : Rule) : Dependents :=
  ⟨addAll d.ofCondition r.conditionIds.toList r.id, addAll d.ofRule r.parentIds.toList r.id⟩

/-- Strike everything that a rule names. -/
def unregister (d : Dependents) (r : Rule) : Dependents :=
  ⟨removeAll d.ofCondition r.conditionIds.toList r.id,
    removeAll d.ofRule r.parentIds.toList r.id⟩

/-- The members of one set that are not in another. -/
def difference (s t : IdSet) : List String := s.toList.filter fun id => id ∉ t

/-- Strike what only the old version of a rule names, and enter what only the new one does. -/
def replace (d : Dependents) (old new : Rule) : Dependents :=
  let change (t : UserTable) (before after : IdSet) : UserTable :=
    addAll (removeAll t (difference before after) old.id) (difference after before) new.id
  ⟨change d.ofCondition old.conditionIds new.conditionIds,
    change d.ofRule old.parentIds new.parentIds⟩

/-- The index of a list of rules. -/
def ofRules (rules : List Rule) : Dependents := rules.foldl register ∅

/-- The rules that use a rule; with `indirect` also through other rules. -/
def usersOfRule (d : Dependents) (id : String) (indirect : Bool) : IdSet :=
  if indirect then d.ofRule.closure id else d.ofRule.users id

/-- The rules that use a condition; with `indirect` also through other rules. -/
def usersOfCondition (d : Dependents) (id : String) (indirect : Bool) : IdSet :=
  let direct := d.ofCondition.users id
  if indirect then direct.toList.foldl (fun ids r => ids ∪ d.usersOfRule r true) direct
  else direct

/-- The first of the parents that is the rule itself or depends on it. -/
def closesCycle? (d : Dependents) (id : String) (parents : List String) : Option String :=
  let users := d.usersOfRule id true
  parents.find? fun p => p == id || users.contains p

end Dependents

end Newswire
