import Newswire.Archive
import Newswire.Desk.Verdicts
import Newswire.Distribution
import Newswire.Query.Search
import Newswire.Query.Search.Matching
import Newswire.Query.Store
import Newswire.Query.Store.Matching
import Newswire.Rule.Evaluation
import Newswire.Rule.Overlap

/-!
# The desk

A `Desk` holds everything that decides about items: the schema, the rulebook, the distribution and
the remembered verdicts.  Decisions are made in `Judging`: they read the desk and may change the
remembered verdicts, also when they fail.
-/

namespace Newswire

/-- Everything that decides about items. -/
structure Desk where
  /-- What the names of fields mean. -/
  schema : Schema
  /-- The conditions and rules. -/
  book : Rulebook
  /-- The products, subscribers and routes. -/
  distribution : Distribution
  /-- The remembered verdicts. -/
  verdicts : Verdicts
  deriving Inhabited

/-- A decision that may fail and that looks up and remembers verdicts. -/
abbrev Judging (α : Type) := ExceptT RuleError (StateM Verdicts) α

namespace Desk

/-- A desk without rules. -/
def new (schema : Schema) (cache : CacheSettings) : Desk := ⟨schema, ∅, ∅, .new cache⟩

/-! ### Decisions -/

/-- The key under which the verdict on an item is remembered.  Rules that are not saved and items
without identity have none. -/
def verdictKey? (cache : CacheSettings) (r : Rule) (item : Json) : Option VerdictKey :=
  if r.id.isEmpty || !cache.enabled then none
  else (Item.id? item).map fun id => ⟨r.id, r.revision, id⟩

/-- A rule selects the item, decided anew; the verdict is remembered. -/
def judge (d : Desk) (r : Rule) (item : Json) : Judging Bool := do
  let v ← get
  let verdict ← d.book.holds d.schema item (some r)
  if let some key := verdictKey? v.settings r item then
    modify fun now => now.put key verdict v.generation
  return verdict

/-- A rule selects the item; without a rule every item is selected.  With `memory` a remembered
verdict is taken. -/
def selects (d : Desk) (r : Option Rule) (item : Json) (memory : Bool) : Judging Bool := do
  match r with
  | none => return true
  | some r =>
    match verdictKey? (← get).settings r item, memory with
    | some key, true => match ← modifyGet fun v => v.get key with
      | some verdict => return verdict
      | none => d.judge r item
    | _, _ => d.judge r item

/-- A saved rule selects the item. -/
def savedSelects (d : Desk) (id : String) (item : Json) (memory : Bool) : Judging Bool := do
  d.selects (some (← d.book.rule id)) item memory

/-- A product passes an item on. -/
def accepts (d : Desk) (p : Product) (item : Json) : Judging Bool := do
  match p.rule with
  | none => return true
  | some use => return use.admission.accepts (← d.savedSelects use.ruleId item true)

/-- A subscriber gets an item: some of the subscriber's products passes it on. -/
def receives (d : Desk) (id : String) (item : Json) : Judging Bool := do
  match d.distribution.subscribers.get? id with
  | none => throw (.notFound .subscriber id)
  | some s =>
    if s.isActive then (d.distribution.productsOf s).anyM fun p => d.accepts p item
    else return false

/-- A route applies to an item. -/
def applies (d : Desk) (id : String) (item : Json) : Judging Bool := do
  match d.distribution.routes.get? id with
  | none => throw (.notFound .route id)
  | some route => match route.ruleId with
    | none => return true
    | some ruleId => d.savedSelects ruleId item true

/-- Make a decision, and take over what is remembered. -/
def run {α : Type} (d : Desk) (j : Judging α) : Except RuleError α × Desk :=
  let (result, verdicts) := j.run d.verdicts
  (result, { d with verdicts })

/-- A memory of its own for many decisions at once; it is used in any case. -/
def scratch (d : Desk) : Verdicts := .new { d.verdicts.settings with enabled := true }

/-- The items that a saved rule selects, in their order. -/
def filterItems (d : Desk) (id : String) (items : List Json) : Except RuleError (List Json) := do
  let r ← d.book.rule id
  ((items.filterM fun item => d.selects (some r) item true : Judging (List Json)).run d.scratch).1

/-! ### Queries -/

/-- The store query of a rule. -/
def storeQuery (d : Desk) (r : Option Rule) : Except RuleError Json :=
  d.book.compile d.schema StoreQuery.target r

/-- The search query of a rule. -/
def searchQuery (d : Desk) (r : Option Rule) : Except RuleError Json :=
  d.book.compile d.schema SearchQuery.target r

/-- The stored items that satisfy the store query of a rule. -/
def queryStore (d : Desk) (a : Archive) (r : Option Rule) : Except RuleError Found := do
  a.run (StoreQuery.matcher (← d.storeQuery r))

/-- The stored items that satisfy the search query of a rule. -/
def querySearch (d : Desk) (a : Archive) (r : Option Rule) : Except RuleError Found := do
  a.run (SearchQuery.matcher (← d.searchQuery r))

/-- A condition can be written as a query of either kind. -/
def checkExpressible (d : Desk) (c : Condition) : Except RuleError Unit := do
  let kind := d.schema.resolve c.field
  discard <| StoreQuery.condition d.schema.layout kind c
  discard <| SearchQuery.condition d.schema.layout kind c

/-- A rule can be written as a query of either kind. -/
def checkCompiles (d : Desk) (r : Rule) : Except RuleError Unit := do
  discard <| d.storeQuery (some r)
  discard <| d.searchQuery (some r)

/-! ### Effects of a change -/

/-- The saved conditions that may hold together with a condition. -/
def overlapping (d : Desk) (kind : ValueKind) (c : Condition) : List Condition :=
  d.book.conditions.values.filter (c.overlaps kind)

/-- The active subscribers that a condition concerns: a product of theirs has a rule that uses,
directly or through other rules, a condition that may hold together with it. -/
def subscribersConcerned (d : Desk) (c : Condition) : Except RuleError (List String) := do
  d.checkExpressible c
  let stored := d.overlapping (d.schema.resolve c.field).values c
  let rules := stored.foldl (fun ids s => ids ∪ d.book.dependents.usersOfCondition s.id true)
    (∅ : IdSet)
  return d.distribution.activeSubscribersUsing rules

end Desk

end Newswire
