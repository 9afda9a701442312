import Newswire.Desk.Maintenance
import Newswire.Rule.Order
import Newswire.Settings.Basic

/-!
# Bundles

A `Bundle` holds everything that a desk starts with.  `Bundle.onDesk` puts it on a new desk by the
same operations that maintain the desk, the rules with parents first, so whatever those refuse is
refused here.
-/

namespace Newswire

/-- Everything that a desk starts with, and items to try it on. -/
structure Bundle where
  /-- The vocabularies. -/
  vocabularies : List Vocabulary
  /-- The conditions. -/
  conditions : List Condition
  /-- The rules, in any order. -/
  rules : List Rule
  /-- The products. -/
  products : List Product
  /-- The subscribers. -/
  subscribers : List Subscriber
  /-- The routes. -/
  routes : List Route
  /-- The items. -/
  items : List Json

/-- The schema of a layout and vocabularies, of which a later one replaces an earlier one. -/
def Schema.ofVocabularies (layout : FieldLayout) (vs : List Vocabulary) : Schema :=
  vs.foldl Schema.put (.ofLayout layout)

/-- A new desk on which nothing is saved yet. -/
def Settings.desk (s : Settings) (vs : List Vocabulary) : Desk :=
  .new (.ofVocabularies s.fields vs) s.cache

/-- The desk with everything in the bundle saved on it. -/
def Bundle.onDesk (b : Bundle) (settings : Settings) (now : Timestamp) : Except RuleError Desk := do
  let desk ← b.conditions.foldlM Desk.saveCondition (settings.desk b.vocabularies)
  let rules ← Rule.arrange b.rules
  let desk ← rules.foldlM (fun d r => Prod.snd <$> d.saveRule now r) desk
  let desk ← b.products.foldlM Desk.saveProduct desk
  let desk ← b.subscribers.foldlM Desk.saveSubscriber desk
  b.routes.foldlM Desk.saveRoute desk

end Newswire
