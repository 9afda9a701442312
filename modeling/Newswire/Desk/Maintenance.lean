import Newswire.Desk.Basic

/-!
# Maintaining the desk

Everything that is saved or deleted goes through one of these operations.  Each checks first and
fails without a change; one that changes rules also forgets the verdicts that the change concerns.
-/

namespace Newswire

namespace Desk

/-- Save a condition. -/
def saveCondition (d : Desk) (c : Condition) : Except RuleError Desk := do
  let book ← d.book.saveCondition c
  d.checkExpressible c
  return { d with book, verdicts := d.verdicts.forget (book.dependents.usersOfCondition c.id true) }

/-- Save a rule that can be written as a query of either kind. -/
def saveRule (d : Desk) (now : Timestamp) (r : Rule) : Except RuleError (Rule × Desk) := do
  let (saved, book) ← d.book.saveRuleChecked now d.checkCompiles r
  let concerned := (book.dependents.usersOfRule saved.id true).insert saved.id
  return (saved, { d with book, verdicts := d.verdicts.forget concerned })

/-- Everything besides rules that uses a rule. -/
def otherUsers (d : Desk) (id : String) : List Referent := d.distribution.usersOf id

/-- Delete a rule that nothing uses. -/
def deleteRule (d : Desk) (id : String) : Except RuleError (Rule × Desk) := do
  let (removed, book) ← d.book.deleteRule (d.otherUsers id) id
  return (removed, { d with book, verdicts := d.verdicts.forget ((∅ : IdSet).insert id) })

/-- Delete a condition that no rule uses. -/
def deleteCondition (d : Desk) (id : String) : Except RuleError (Condition × Desk) := do
  let (removed, book) ← d.book.deleteCondition id
  return (removed, { d with book })

/-- A rule that something is going to use is saved, if any is named. -/
def checkNamed (d : Desk) (id : Option String) : Except RuleError Unit :=
  match id with
  | some id => discard (d.book.rule id)
  | none => .ok ()

/-- Save a product; its rule has to be saved. -/
def saveProduct (d : Desk) (p : Product) : Except RuleError Desk := do
  d.checkNamed p.ruleId?
  return { d with distribution := d.distribution.putProduct p }

/-- Save a route; its rule has to be saved. -/
def saveRoute (d : Desk) (r : Route) : Except RuleError Desk := do
  d.checkNamed r.ruleId
  return { d with distribution := d.distribution.putRoute r }

/-- Save a subscriber; the products have to be saved. -/
def saveSubscriber (d : Desk) (s : Subscriber) : Except RuleError Desk :=
  match s.products.find? fun id => !d.distribution.products.contains id with
  | some missing => .error (.notFound .product missing)
  | none => .ok { d with distribution := d.distribution.putSubscriber s }

/-- Forget all verdicts. -/
def forgetAll (d : Desk) : Desk := { d with verdicts := d.verdicts.clear }

end Desk

end Newswire
