import Newswire.Rule.Comparison
import Newswire.Rulebook.Basic

/-!
# Evaluating rules

`Rulebook.holds` decides whether an item is selected by a rule.  Clauses are tried in order until
one holds; in a clause the conditions come before the parents, each in the order of their
identifiers, and the first that fails decides.  Whatever is not reached is not looked up, so a
missing condition shows only when it matters.
-/

namespace Newswire

namespace Rulebook

variable (b : Rulebook) (schema : Schema) (item : Json)

/-- A saved condition holds of the item. -/
def conditionHolds (id : String) : Except RuleError Bool := do
  let c ← b.condition id
  return c.holds schema item

/-- Some clause of a rule holds of the item; the walk is already inside the rule. -/
def someClauseHolds (path : VisitPath) (r : Rule) : Except RuleError Bool :=
  r.clauses.anyM fun clause => do
    if ← clause.conditions.toList.allM (b.conditionHolds schema item) then
      clause.parents.toList.allM fun id =>
        match _hr : b.rules.get? id with
        | none => throw (.ruleNotFound id)
        | some parent =>
          match _hq : path.enter parent.id with
          | .error e => throw e
          | .ok inside => someClauseHolds inside parent
    else return false
termination_by b.unvisited path
decreasing_by exact unvisited_enter_lt _hr _hq

/-- A rule holds of the item, on a walk that comes to it from outside. -/
def holdsFrom (path : VisitPath) (r : Rule) : Except RuleError Bool := do
  let inside ← path.enter r.id
  b.someClauseHolds schema item inside r

/-- A rule selects the item; without a rule every item is selected. -/
def holds (r : Option Rule) : Except RuleError Bool :=
  match r with
  | some r => b.holdsFrom schema item .empty r
  | none => return true

end Rulebook

end Newswire
