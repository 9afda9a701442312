import Newswire.Desk.Bundle
import Newswire.Proofs.Rule.Order
import Newswire.Proofs.Rulebook.Exactness

/-!
# What a bundle says

A bundle is a handful of lists, and a desk keeps tables.  What a bundle demands and what a desk holds
of it is said here by the members of the lists, so that their order does not matter.

* `Table.Holds` : a table has the values of a list, and no others.
* `Bundle.Distinct`, `Bundle.WellFormed` : the identifiers in each list are different, and everything
  that is named is in the bundle, without circles.
* `Desk.Carries` : a desk has what a bundle says, and nothing else.
* `Bundle.Rearranges` : a bundle with its lists in another order.  It is as well-formed
  (`Bundle.WellFormed.rearranged`), and a desk that carries it is the same desk
  (`Desk.Carries.eq_of_rearranges`).
-/

namespace Newswire

open Relation

namespace Table

variable {α : Type} {s t : Table α} {id : α → String} {xs ys : List α} {a : α} {k : String}

/-- The table has exactly the values of a list, by their identifiers. -/
def Holds (t : Table α) (id : α → String) (xs : List α) : Prop :=
  ∀ k a, t.get? k = some a ↔ a ∈ xs ∧ id a = k

theorem holds_empty (id : α → String) : (∅ : Table α).Holds id [] := by
  intro k a
  simp

theorem Holds.insert (h : t.Holds id xs) (hnew : id a ∉ xs.map id) :
    (t.insert (id a) a).Holds id (xs ++ [a]) := by
  intro k w
  rw [get?_insert_eq_some_iff, h k w, List.mem_append, List.mem_singleton]
  constructor
  · rintro (⟨rfl, rfl⟩ | ⟨-, hw, hk⟩)
    · exact ⟨Or.inr rfl, rfl⟩
    · exact ⟨Or.inl hw, hk⟩
  · rintro ⟨hw | rfl, rfl⟩
    · exact Or.inr ⟨fun heq => hnew (heq ▸ List.mem_map_of_mem hw), hw, rfl⟩
    · exact Or.inl ⟨rfl, rfl⟩

theorem Holds.congr (h : t.Holds id xs) (hsame : ∀ a, a ∈ xs ↔ a ∈ ys) : t.Holds id ys := by
  intro k a
  rw [h k a, hsame a]

/-- The values determine the table. -/
theorem Holds.unique (hs : s.Holds id xs) (ht : t.Holds id xs) : s = t := by
  refine Table.ext fun k => Option.ext fun a => ?_
  rw [hs k a, ht k a]

theorem Holds.exists_iff (h : t.Holds id xs) :
    (∃ a, t.get? k = some a) ↔ ∃ a ∈ xs, id a = k := by
  simp only [h k]

theorem holds_foldl_insert (h : t.Holds id xs) (hnodup : ((xs ++ ys).map id).Nodup) :
    (ys.foldl (fun t a => t.insert (id a) a) t).Holds id (xs ++ ys) := by
  induction ys generalizing t xs with
  | nil => rwa [List.append_nil]
  | cons a ys ih =>
    rw [List.append_cons] at hnodup ⊢
    refine ih (h.insert ?_) hnodup
    rw [List.map_append, List.map_append] at hnodup
    exact fun hmem => (List.nodup_append.1 (List.nodup_append.1 hnodup).1).2.2 _ hmem _
      List.mem_cons_self rfl

end Table

/-! ### Well-formed bundles -/

/-- The rule is complete by itself, and it names only conditions of a list. -/
structure Rule.Fits (conditions : List Condition) (r : Rule) : Prop where
  /-- It has an identifier. -/
  id_ne : r.id ≠ ""
  /-- It has clauses. -/
  clauses_ne : r.clauses ≠ []
  /-- Every clause demands something. -/
  clause_ne : ∀ c ∈ r.clauses, c.isEmpty = false
  /-- Its conditions are in the list. -/
  conditions : ∀ k ∈ r.conditionIds, ∃ c ∈ conditions, c.id = k

namespace Bundle

/-- Within each list the identifiers are different. -/
structure Distinct (b : Bundle) : Prop where
  /-- Those of the vocabularies. -/
  vocabularies : (b.vocabularies.map Vocabulary.id).Nodup
  /-- Those of the conditions. -/
  conditions : (b.conditions.map Condition.id).Nodup
  /-- Those of the rules. -/
  rules : (b.rules.map Rule.id).Nodup
  /-- Those of the products. -/
  products : (b.products.map Product.id).Nodup
  /-- Those of the subscribers. -/
  subscribers : (b.subscribers.map Subscriber.id).Nodup
  /-- Those of the routes. -/
  routes : (b.routes.map Route.id).Nodup

/-- A condition is fit to be saved, and with the vocabularies of the bundle it can be written as a
query of either kind. -/
def Accepts (b : Bundle) (settings : Settings) (c : Condition) : Prop :=
  Rulebook.checkCondition c = .ok () ∧
    (settings.desk b.vocabularies).checkExpressible c = .ok ()

/-- Everything in the bundle is in order. -/
structure WellFormed (b : Bundle) (settings : Settings) : Prop where
  /-- The conditions are fit. -/
  conditions : ∀ c ∈ b.conditions, b.Accepts settings c
  /-- The rules are complete and name conditions of the bundle. -/
  rules : ∀ r ∈ b.rules, r.Fits b.conditions
  /-- The parents of the rules are rules of the bundle. -/
  parents : ∀ r ∈ b.rules, ∀ k ∈ r.parentIds, ∃ p ∈ b.rules, p.id = k
  /-- No rule leads back to itself. -/
  acyclic : ∀ k, ¬TransGen (Rule.Names b.rules) k k
  /-- The rules of the products are rules of the bundle. -/
  products : ∀ p ∈ b.products, ∀ k ∈ p.ruleId?, ∃ r ∈ b.rules, r.id = k
  /-- The products of the subscribers are products of the bundle. -/
  subscribers : ∀ s ∈ b.subscribers, ∀ k ∈ s.products, ∃ p ∈ b.products, p.id = k
  /-- The rules of the routes are rules of the bundle. -/
  routes : ∀ t ∈ b.routes, ∀ k ∈ t.ruleId, ∃ r ∈ b.rules, r.id = k

/-- The bundle has the same members as another, in any order. -/
structure Rearranges (b b' : Bundle) : Prop where
  /-- The vocabularies. -/
  vocabularies : b'.vocabularies.Perm b.vocabularies
  /-- The conditions. -/
  conditions : b'.conditions.Perm b.conditions
  /-- The rules. -/
  rules : b'.rules.Perm b.rules
  /-- The products. -/
  products : b'.products.Perm b.products
  /-- The subscribers. -/
  subscribers : b'.subscribers.Perm b.subscribers
  /-- The routes. -/
  routes : b'.routes.Perm b.routes

end Bundle

theorem Schema.holds_ofVocabularies (layout : FieldLayout) {vs : List Vocabulary}
    (h : (vs.map Vocabulary.id).Nodup) :
    (Schema.ofVocabularies layout vs).vocabularies.Holds Vocabulary.id vs ∧
      (Schema.ofVocabularies layout vs).layout = layout := by
  have hput : ∀ s : Schema, vs.foldl Schema.put s =
      ⟨s.layout, vs.foldl (fun t v => t.insert v.id v) s.vocabularies⟩ := by
    clear h
    induction vs with
    | nil => exact fun s => rfl
    | cons v vs ih => exact fun s => ih (s.put v)
  rw [Schema.ofVocabularies, hput]
  exact ⟨Table.holds_foldl_insert (Table.holds_empty _) h, rfl⟩

namespace Desk

/-- The desk has exactly what the bundle says, every rule as a first version saved at a given time,
and it remembers nothing yet. -/
structure Carries (d : Desk) (b : Bundle) (settings : Settings) (now : Timestamp) : Prop where
  /-- The layout is the one of the settings. -/
  layout : d.schema.layout = settings.fields
  /-- The vocabularies. -/
  vocabularies : d.schema.vocabularies.Holds Vocabulary.id b.vocabularies
  /-- The conditions. -/
  conditions : d.book.conditions.Holds Condition.id b.conditions
  /-- The rules; the count of versions goes on from the given one, and begins with one. -/
  rules : d.book.rules.Holds Rule.id
    (b.rules.map fun r => { r with revision := max r.revision 1, updatedAt := now })
  /-- The index of users is the one that the rules make. -/
  dependents : d.book.dependents = Dependents.ofRules b.rules
  /-- The products. -/
  products : d.distribution.products.Holds Product.id b.products
  /-- The subscribers. -/
  subscribers : d.distribution.subscribers.Holds Subscriber.id b.subscribers
  /-- The routes. -/
  routes : d.distribution.routes.Holds Route.id b.routes
  /-- Nothing is remembered, and every rule has begun a generation. -/
  verdicts : d.verdicts = { Verdicts.new settings.cache with generation := b.rules.length }

end Desk

/-! ### Bundles in another order -/

variable {b b' : Bundle} {settings : Settings} {now : Timestamp} {d d' : Desk}

theorem Bundle.Distinct.rearranged (h : b.Distinct) (hb : b.Rearranges b') : b'.Distinct where
  vocabularies := (hb.vocabularies.map _).nodup_iff.2 h.vocabularies
  conditions := (hb.conditions.map _).nodup_iff.2 h.conditions
  rules := (hb.rules.map _).nodup_iff.2 h.rules
  products := (hb.products.map _).nodup_iff.2 h.products
  subscribers := (hb.subscribers.map _).nodup_iff.2 h.subscribers
  routes := (hb.routes.map _).nodup_iff.2 h.routes

theorem Bundle.Rearranges.symm (h : b.Rearranges b') : b'.Rearranges b :=
  ⟨h.vocabularies.symm, h.conditions.symm, h.rules.symm, h.products.symm, h.subscribers.symm,
    h.routes.symm⟩

theorem Bundle.Rearranges.ofVocabularies_eq (h : b.Rearranges b')
    (hb : (b.vocabularies.map Vocabulary.id).Nodup) (layout : FieldLayout) :
    Schema.ofVocabularies layout b'.vocabularies = Schema.ofVocabularies layout b.vocabularies := by
  obtain ⟨hholds, hlayout⟩ := Schema.holds_ofVocabularies layout hb
  obtain ⟨hholds', hlayout'⟩ :=
    Schema.holds_ofVocabularies layout ((h.vocabularies.map _).nodup_iff.2 hb)
  have hsame := (hholds'.congr fun v => h.vocabularies.mem_iff).unique hholds
  generalize Schema.ofVocabularies layout b'.vocabularies = s' at hlayout' hsame ⊢
  generalize Schema.ofVocabularies layout b.vocabularies = s at hlayout hsame ⊢
  obtain ⟨l, vs⟩ := s
  obtain ⟨l', vs'⟩ := s'
  obtain rfl : vs' = vs := hsame
  exact congrArg (Schema.mk · vs') (hlayout'.trans hlayout.symm)

/-- Whether a bundle is well-formed does not depend on the order of its lists. -/
theorem Bundle.WellFormed.rearranged (h : b.WellFormed settings) (hb : b.Distinct)
    (horder : b.Rearranges b') : b'.WellFormed settings where
  conditions c hc := by
    obtain ⟨hcheck, hexpressible⟩ := h.conditions c (horder.conditions.mem_iff.1 hc)
    refine ⟨hcheck, ?_⟩
    rw [Settings.desk, horder.ofVocabularies_eq hb.vocabularies]
    exact hexpressible
  rules r hr := by
    have hfits := h.rules r (horder.rules.mem_iff.1 hr)
    refine { hfits with conditions := fun k hk => ?_ }
    obtain ⟨c, hc, hid⟩ := hfits.conditions k hk
    exact ⟨c, horder.conditions.mem_iff.2 hc, hid⟩
  parents r hr k hk := by
    obtain ⟨p, hp, hid⟩ := h.parents r (horder.rules.mem_iff.1 hr) k hk
    exact ⟨p, horder.rules.mem_iff.2 hp, hid⟩
  acyclic k hk := by
    refine h.acyclic k (TransGen.mono (fun u v hnames => ?_) k k hk)
    exact hnames.mono fun r hr => horder.rules.mem_iff.1 hr
  products p hp k hk := by
    obtain ⟨r, hr, hid⟩ := h.products p (horder.products.mem_iff.1 hp) k hk
    exact ⟨r, horder.rules.mem_iff.2 hr, hid⟩
  subscribers s hs k hk := by
    obtain ⟨p, hp, hid⟩ := h.subscribers s (horder.subscribers.mem_iff.1 hs) k hk
    exact ⟨p, horder.products.mem_iff.2 hp, hid⟩
  routes t ht k hk := by
    obtain ⟨r, hr, hid⟩ := h.routes t (horder.routes.mem_iff.1 ht) k hk
    exact ⟨r, horder.rules.mem_iff.2 hr, hid⟩

/-- **A bundle in any order is carried by one desk only.** -/
theorem Desk.Carries.eq_of_rearranges (h : d.Carries b settings now)
    (h' : d'.Carries b' settings now) (horder : b.Rearranges b') : d' = d := by
  have hlayout := h'.layout.trans h.layout.symm
  have hvocabularies :=
    (h'.vocabularies.congr fun _ => horder.vocabularies.mem_iff).unique h.vocabularies
  have hconditions := (h'.conditions.congr fun _ => horder.conditions.mem_iff).unique h.conditions
  have hrules := (h'.rules.congr fun _ => (horder.rules.map _).mem_iff).unique h.rules
  have hdependents : d'.book.dependents = d.book.dependents := by
    rw [h'.dependents, h.dependents, Dependents.ofRules_congr fun _ => horder.rules.mem_iff]
  have hproducts := (h'.products.congr fun _ => horder.products.mem_iff).unique h.products
  have hsubscribers :=
    (h'.subscribers.congr fun _ => horder.subscribers.mem_iff).unique h.subscribers
  have hroutes := (h'.routes.congr fun _ => horder.routes.mem_iff).unique h.routes
  have hverdicts : d'.verdicts = d.verdicts := by
    rw [h'.verdicts, h.verdicts, horder.rules.length_eq]
  clear h h'
  obtain ⟨⟨layout, vocabularies⟩, ⟨conditions, rules, dependents⟩, ⟨products, subscribers, routes⟩,
    verdicts⟩ := d
  obtain ⟨⟨layout', vocabularies'⟩, ⟨conditions', rules', dependents'⟩,
    ⟨products', subscribers', routes'⟩, verdicts'⟩ := d'
  obtain rfl : layout' = layout := hlayout
  obtain rfl : vocabularies' = vocabularies := hvocabularies
  obtain rfl : conditions' = conditions := hconditions
  obtain rfl : rules' = rules := hrules
  obtain rfl : dependents' = dependents := hdependents
  obtain rfl : products' = products := hproducts
  obtain rfl : subscribers' = subscribers := hsubscribers
  obtain rfl : routes' = routes := hroutes
  obtain rfl : verdicts' = verdicts := hverdicts
  rfl

end Newswire
