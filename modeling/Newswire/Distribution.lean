import Newswire.Collection.IdSet
import Newswire.Rule.Error

/-!
# Who gets which items

A subscriber owns products, and a product passes items on, all of them or those that a rule
permits or does not block.  A route says of an item whether it applies.  All are kept by
identifier in a `Distribution`.
-/

namespace Newswire

/-- What a product does with the items that its rule selects. -/
inductive Admission where
  /-- It passes on all but the selected items. -/
  | blocking
  /-- It passes on the selected items only. -/
  | permitting
  deriving DecidableEq, Repr

namespace Admission

/-- The word for a kind of admission. -/
def name : Admission → String
  | blocking => "blocking"
  | permitting => "permitting"

/-- The kind of admission with the given word. -/
def ofName? (word : String) : Option Admission :=
  [blocking, permitting].find? fun a => a.name == word

/-- An item is passed on, when `selected` tells whether the rule selects it. -/
def accepts : Admission → Bool → Bool
  | blocking, selected => !selected
  | permitting, selected => selected

end Admission

/-- The rule of a product. -/
structure ProductRule where
  /-- The rule. -/
  ruleId : String
  /-- What is done with the items that it selects. -/
  admission : Admission
  deriving DecidableEq, Repr

/-- A product. -/
structure Product where
  /-- Identifier. -/
  id : String
  /-- Name for people. -/
  name : String
  /-- The rule for its items; without one it passes on all. -/
  rule : Option ProductRule
  deriving DecidableEq, Repr

/-- The rule that a product names. -/
def Product.ruleId? (p : Product) : Option String := p.rule.map ProductRule.ruleId

/-- A subscriber. -/
structure Subscriber where
  /-- Identifier. -/
  id : String
  /-- Name for people. -/
  name : String
  /-- The products that the subscriber owns. -/
  products : List String
  /-- Whether anything is sent at all. -/
  isActive : Bool
  deriving DecidableEq, Repr

/-- A route. -/
structure Route where
  /-- Identifier. -/
  id : String
  /-- Name for people. -/
  name : String
  /-- The rule for its items; without one it applies to all. -/
  ruleId : Option String
  deriving DecidableEq, Repr

/-- The products, subscribers and routes. -/
structure Distribution where
  /-- The products by identifier. -/
  products : Table Product
  /-- The subscribers by identifier. -/
  subscribers : Table Subscriber
  /-- The routes by identifier. -/
  routes : Table Route
  deriving Inhabited

namespace Distribution

/-- No products, subscribers and routes. -/
def empty : Distribution := ⟨∅, ∅, ∅⟩

instance : EmptyCollection Distribution := ⟨empty⟩

/-- Add a product, in place of the one with its identifier. -/
def putProduct (d : Distribution) (p : Product) : Distribution :=
  { d with products := d.products.insert p.id p }

/-- Add a subscriber, in place of the one with its identifier. -/
def putSubscriber (d : Distribution) (s : Subscriber) : Distribution :=
  { d with subscribers := d.subscribers.insert s.id s }

/-- Add a route, in place of the one with its identifier. -/
def putRoute (d : Distribution) (r : Route) : Distribution :=
  { d with routes := d.routes.insert r.id r }

/-- The products of a subscriber that exist. -/
def productsOf (d : Distribution) (s : Subscriber) : List Product :=
  s.products.filterMap d.products.get?

/-- The active subscribers with a product whose rule is in a set. -/
def activeSubscribersUsing (d : Distribution) (rules : IdSet) : List String :=
  (d.subscribers.values.filter fun s => s.isActive && (d.productsOf s).any fun p =>
    (p.ruleId?.map rules.contains).getD false).map Subscriber.id

/-- The products and routes that use a rule. -/
def usersOf (d : Distribution) (ruleId : String) : List Referent :=
  ((d.products.values.filter fun p => p.ruleId? == some ruleId).map fun p => .product p.id) ++
    (d.routes.values.filter fun r => r.ruleId == some ruleId).map fun r => .route r.id

end Distribution

end Newswire
