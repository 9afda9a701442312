import Newswire.Rule.Error
import Newswire.Rulebook.Dependents

/-!
# The rulebook

A `Rulebook` holds the saved conditions and rules together with the index of their users.
`Rulebook.saveCondition`, `saveRule`, `deleteRule` and `deleteCondition` are the only ways in which
it changes; each checks first and fails without a change.

A walk from a rule to its parents keeps the identifiers on its way in a `VisitPath`.  Stored rules
that are not on the way become fewer with every step (`Rulebook.unvisited_enter_lt`), so walks end
on any rulebook, also one whose rules name one another in a circle.
-/

namespace Newswire

/-! ### Walks -/

/-- The identifiers of the rules that a walk is inside of, the outermost first. -/
structure VisitPath where
  /-- The identifiers. -/
  ids : List String
  deriving DecidableEq, Repr

namespace VisitPath

/-- The path of a walk that has not begun. -/
def empty : VisitPath := ⟨[]⟩

/-- Go inside a rule; no rule may be entered inside itself. -/
def enter (p : VisitPath) (id : String) : Except RuleError VisitPath :=
  if id ∈ p.ids then .error (.cycle (p.ids ++ [id])) else .ok ⟨p.ids ++ [id]⟩

/-- Go out of the innermost rule. -/
def leave (p : VisitPath) : VisitPath := ⟨p.ids.dropLast⟩

/-- How many rules the walk is inside of. -/
def depth (p : VisitPath) : Nat := p.ids.length

theorem enter_eq_ok_iff {p q : VisitPath} {id : String} :
    p.enter id = .ok q ↔ id ∉ p.ids ∧ q = ⟨p.ids ++ [id]⟩ := by
  unfold enter
  split <;> simp_all [eq_comm]

theorem leave_of_enter {p q : VisitPath} {id : String} (h : p.enter id = .ok q) : q.leave = p := by
  obtain ⟨_, rfl⟩ := enter_eq_ok_iff.1 h
  simp [leave]

end VisitPath

/-- The saved conditions and rules. -/
structure Rulebook where
  /-- The saved conditions by identifier. -/
  conditions : Table Condition
  /-- The saved rules by identifier. -/
  rules : Table Rule
  /-- Who uses which condition and which rule. -/
  dependents : Dependents
  deriving Inhabited

namespace Rulebook

/-- The rulebook without conditions and rules. -/
def empty : Rulebook := ⟨∅, ∅, ∅⟩

instance : EmptyCollection Rulebook := ⟨empty⟩

/-- A saved condition. -/
def condition (b : Rulebook) (id : String) : Except RuleError Condition :=
  match b.conditions.get? id with
  | some c => .ok c
  | none => .error (.conditionNotFound id)

/-- A saved rule. -/
def rule (b : Rulebook) (id : String) : Except RuleError Rule :=
  match b.rules.get? id with
  | some r => .ok r
  | none => .error (.ruleNotFound id)

/-- How many saved rules a walk is not inside of. -/
def unvisited (b : Rulebook) (p : VisitPath) : Nat :=
  (b.rules.values.filter fun r => r.id ∉ p.ids).length

theorem unvisited_enter_lt {b : Rulebook} {p q : VisitPath} {id : String} {r : Rule}
    (hr : b.rules.get? id = some r) (hq : p.enter r.id = .ok q) :
    b.unvisited q < b.unvisited p := by
  obtain ⟨hp, rfl⟩ := VisitPath.enter_eq_ok_iff.1 hq
  exact length_filter_lt_of_imp (fun x h => by simp_all) (Table.mem_values_of_get? hr)
    (by simpa using hp) (by simp)

/-! ### Saving -/

/-- What is wrong with a condition by itself, if anything. -/
def conditionFlaw? (c : Condition) : Option ConditionFlaw :=
  if c.id.isEmpty then some .missingId
  else if (Text.trim c.field).isEmpty then some .blankField
  else if c.operator.isList then
    if (listEntries c.value).isEmpty then some .noEntries else none
  else if c.value.isEmpty then some .missingValue
  else none

/-- A condition is fit to be saved. -/
def checkCondition (c : Condition) : Except RuleError Unit :=
  match conditionFlaw? c with
  | some flaw => .error (.invalidCondition c.id flaw)
  | none => .ok ()

/-- A clause of a rule demands something, and only what is saved; the rule itself counts as
saved. -/
def checkClause (b : Rulebook) (r : Rule) (index : Nat) (c : Clause) : Except RuleError Unit :=
  if c.isEmpty then .error (.emptyClause r.id index)
  else match c.conditions.toList.find? fun id => !b.conditions.contains id with
    | some id => .error (.conditionNotFound id)
    | none => match c.parents.toList.find? fun id => id != r.id && !b.rules.contains id with
      | some id => .error (.ruleNotFound id)
      | none => .ok ()

/-- A rule is fit to be saved: it has clauses, they are in order, and no circle is closed. -/
def checkRule (b : Rulebook) (r : Rule) : Except RuleError Unit := do
  if r.id.isEmpty then throw (.ruleNotFound "")
  if r.clauses.isEmpty then throw (.emptyRule r.id)
  r.clauses.zipIdx.forM fun (c, index) => b.checkClause r index c
  match b.dependents.closesCycle? r.id r.parentIds.toList with
  | some p => throw (.cycle (if p = r.id then [r.id, p] else [r.id, p, r.id]))
  | none => return ()

/-- Save a condition, in place of the one with its identifier. -/
def saveCondition (b : Rulebook) (c : Condition) : Except RuleError Rulebook := do
  checkCondition c
  return { b with conditions := b.conditions.insert c.id c }

/-- The version of a rule that is saved after `previous`: the count of versions goes on and the time
of the first one stays. -/
def nextVersion (now : Timestamp) (previous : Option Rule) (r : Rule) : Rule :=
  match previous with
  | some old =>
    { r with revision := old.revision + 1, createdAt := old.createdAt, updatedAt := now }
  | none => { r with revision := max r.revision 1, updatedAt := now }

/-- The rulebook with a version of a rule put in. -/
def putRule (b : Rulebook) (previous : Option Rule) (saved : Rule) : Rulebook :=
  { b with
    rules := b.rules.insert saved.id saved
    dependents := match previous with
      | some old => b.dependents.replace old saved
      | none => b.dependents.register saved }

/-- Save a rule, in place of the one with its identifier.  `extra` is a further check that it has to
pass. -/
def saveRuleChecked (b : Rulebook) (now : Timestamp) (extra : Rule → Except RuleError Unit)
    (r : Rule) : Except RuleError (Rule × Rulebook) := do
  b.checkRule r
  extra r
  let previous := b.rules.get? r.id
  let saved := nextVersion now previous r
  return (saved, b.putRule previous saved)

/-- Save a rule, in place of the one with its identifier. -/
def saveRule (b : Rulebook) (now : Timestamp) (r : Rule) : Except RuleError (Rule × Rulebook) :=
  b.saveRuleChecked now (fun _ => .ok ()) r

/-! ### Deleting -/

/-- Delete a rule that no rule and none of `others` uses. -/
def deleteRule (b : Rulebook) (others : List Referent) (id : String) :
    Except RuleError (Rule × Rulebook) := do
  let r ← b.rule id
  let referents := (b.dependents.usersOfRule id false).toList.map .rule ++ others
  if !referents.isEmpty then throw (.stillReferenced id referents)
  return (r, { b with rules := b.rules.erase id, dependents := b.dependents.unregister r })

/-- Delete a condition that no rule uses. -/
def deleteCondition (b : Rulebook) (id : String) : Except RuleError (Condition × Rulebook) := do
  let users := (b.dependents.usersOfCondition id false).toList
  if !users.isEmpty then throw (.stillReferenced id (users.map .rule))
  let c ← b.condition id
  return (c, { b with conditions := b.conditions.erase id })

end Rulebook

end Newswire
