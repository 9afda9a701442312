import Newswire.Proofs.Desk.Deletion
import Newswire.Proofs.Desk.Vocabulary

/-!
# Whom a condition concerns

Before a condition is changed, a desk can be asked which active subscribers that may concern.  It looks
for the saved conditions that may hold together with the condition, follows the index of users from
these to all rules that depend on them, and goes from the rules to products and subscribers.

* `Rulebook.DependsOn` : a saved rule leads, by parents, to one that uses a condition itself.
* `Desk.Concerns` : the condition concerns a subscriber, said without the index.
* `Desk.Catalogued` : conditions and subscribers are kept under their own identifiers.
* `Desk.subscribersConcerned_afterEvents` : **after whatever happened to a new desk, exactly the
  subscribers are found that the condition concerns**, each once and in order.
-/

namespace Newswire

open Relation Rulebook

/-! ### Values under their own identifiers -/

namespace Table

variable {α : Type} {t : Table α} {idOf : α → String}

/-- Values are kept under their own identifiers. -/
def KeptBy (t : Table α) (idOf : α → String) : Prop := ∀ k v, t.get? k = some v → idOf v = k

theorem keptBy_empty : (∅ : Table α).KeptBy idOf := fun _ _ h => nomatch h

theorem KeptBy.insert (h : t.KeptBy idOf) (v : α) : (t.insert (idOf v) v).KeptBy idOf := by
  intro k w hw
  rcases get?_insert_eq_some_iff.1 hw with ⟨rfl, rfl⟩ | ⟨-, hw⟩
  · rfl
  · exact h k w hw

theorem KeptBy.erase (h : t.KeptBy idOf) (id : String) : (t.erase id).KeptBy idOf :=
  fun k w hw => h k w (get?_erase_eq_some_iff.1 hw).2

end Table

namespace Rulebook

variable {b : Rulebook} {f c : String}

/-- The rule is, or leads by parents to, a saved rule that has the condition in some clause. -/
def DependsOn (b : Rulebook) (f c : String) : Prop :=
  ∃ g r, ReflTransGen b.Names f g ∧ b.rules.get? g = some r ∧ ∃ clause ∈ r.clauses,
    c ∈ clause.conditions

/-- **The users that the index finds for a condition are the rules that depend on it.** -/
theorem Sound.mem_usersOfCondition_iff (hb : b.Sound) :
    f ∈ b.dependents.usersOfCondition c true ↔ b.DependsOn f c := by
  rw [Dependents.mem_usersOfCondition_iff, hb.uses_eq]
  simp only [reflTransGen_swap, hb.listsConditions c, Rule.mem_conditionIds, DependsOn]
  constructor
  · rintro ⟨g, ⟨r, hr, hc⟩, hleads⟩
    exact ⟨g, r, hleads, hr, hc⟩
  · rintro ⟨g, r, hleads, hr, hc⟩
    exact ⟨g, ⟨r, hr, hc⟩, hleads⟩

end Rulebook

namespace Desk

variable {d d' : Desk} {q : Condition} {id : String}

/-! ### Whom a condition concerns -/

/-- The rule depends on a saved condition that may hold together with the condition. -/
def Affects (d : Desk) (q : Condition) (rule : String) : Prop :=
  ∃ k c, d.book.conditions.get? k = some c ∧
    q.overlaps (d.schema.resolve q.field).values c = true ∧ d.book.DependsOn rule k

/-- The subscriber is active and owns a product with a rule that the condition affects. -/
def Concerns (d : Desk) (q : Condition) (id : String) : Prop :=
  ∃ s, d.distribution.subscribers.get? id = some s ∧ s.isActive = true ∧ ∃ k ∈ s.products, ∃ p,
    d.distribution.products.get? k = some p ∧ ∃ rule, p.ruleId? = some rule ∧ d.Affects q rule

/-- Conditions and subscribers are kept under their own identifiers. -/
structure Catalogued (d : Desk) : Prop where
  /-- The conditions are. -/
  conditions : d.book.conditions.KeptBy Condition.id
  /-- The subscribers are. -/
  subscribers : d.distribution.subscribers.KeptBy Subscriber.id

/-- The rules from which the desk goes on to the subscribers. -/
def affectedRules (d : Desk) (q : Condition) : IdSet :=
  (d.overlapping (d.schema.resolve q.field).values q).foldl
    (fun ids c => ids ∪ d.book.dependents.usersOfCondition c.id true) ∅

theorem mem_affectedRules_iff (hb : d.book.Sound) (hd : d.Catalogued) {rule : String} :
    rule ∈ d.affectedRules q ↔ d.Affects q rule := by
  simp only [affectedRules, Rule.mem_foldl_union, overlapping, List.mem_filter,
    Table.mem_values_iff, hb.mem_usersOfCondition_iff, Affects]
  constructor
  · rintro (hempty | ⟨c, ⟨⟨k, hk⟩, hoverlaps⟩, hdepends⟩)
    · exact absurd hempty (IdSet.not_mem_empty rule)
    · exact ⟨k, c, hk, hoverlaps, hd.conditions k c hk ▸ hdepends⟩
  · rintro ⟨k, c, hk, hoverlaps, hdepends⟩
    exact Or.inr ⟨c, ⟨⟨k, hk⟩, hoverlaps⟩, (hd.conditions k c hk).symm ▸ hdepends⟩

theorem ownsRule_iff {distribution : Distribution} {s : Subscriber} {rules : IdSet} :
    ((distribution.productsOf s).any fun p => (p.ruleId?.map rules.contains).getD false) = true ↔
      ∃ k ∈ s.products, ∃ p, distribution.products.get? k = some p ∧
        ∃ rule, p.ruleId? = some rule ∧ rule ∈ rules := by
  have hproduct : ∀ p : Product, (p.ruleId?.map rules.contains).getD false = true ↔
      ∃ rule, p.ruleId? = some rule ∧ rule ∈ rules := by
    intro p
    cases p.ruleId? with
    | none => simp
    | some rule =>
      simp only [Option.map_some, Option.getD_some, Option.some.injEq, exists_eq_left']
      rfl
  simp only [List.any_eq_true, hproduct, Distribution.productsOf, List.mem_filterMap]
  constructor
  · rintro ⟨p, ⟨k, hk, hp⟩, hrule⟩
    exact ⟨k, hk, p, hp, hrule⟩
  · rintro ⟨k, hk, p, hp, hrule⟩
    exact ⟨p, ⟨k, hk, hp⟩, hrule⟩

theorem mem_activeSubscribersUsing_iff (hd : d.Catalogued) {rules : IdSet} :
    id ∈ d.distribution.activeSubscribersUsing rules ↔
      ∃ s, d.distribution.subscribers.get? id = some s ∧ s.isActive = true ∧
        ∃ k ∈ s.products, ∃ p, d.distribution.products.get? k = some p ∧
          ∃ rule, p.ruleId? = some rule ∧ rule ∈ rules := by
  simp only [Distribution.activeSubscribersUsing, List.mem_map, List.mem_filter,
    Table.mem_values_iff, Bool.and_eq_true, ownsRule_iff]
  constructor
  · rintro ⟨s, ⟨⟨k, hk⟩, hs⟩, rfl⟩
    exact ⟨s, (hd.subscribers k s hk).symm ▸ hk, hs⟩
  · rintro ⟨s, hs, hconcerned⟩
    exact ⟨s, ⟨⟨id, hs⟩, hconcerned⟩, hd.subscribers id s hs⟩

theorem ordered_activeSubscribersUsing (hd : d.Catalogued) (rules : IdSet) :
    (d.distribution.activeSubscribersUsing rules).Pairwise (· < ·) :=
  List.pairwise_map.2 ((Table.pairwise_values fun {k s} => hd.subscribers k s).filter _)

/-- **The subscribers that are found are those that the condition concerns.** -/
theorem Catalogued.exists_subscribersConcerned (hd : d.Catalogued) (hb : d.book.Sound)
    (hq : d.checkExpressible q = .ok ()) :
    ∃ ids, d.subscribersConcerned q = .ok ids ∧ ids.Pairwise (· < ·) ∧
      ∀ id, id ∈ ids ↔ d.Concerns q id := by
  refine ⟨d.distribution.activeSubscribersUsing (d.affectedRules q), ?_,
    ordered_activeSubscribersUsing hd _, fun id => ?_⟩
  · unfold subscribersConcerned
    rw [hq]
    rfl
  · simp only [mem_activeSubscribersUsing_iff hd, mem_affectedRules_iff hb hd, Concerns]

/-! ### Runs -/

theorem catalogued_new (schema : Schema) (cache : CacheSettings) :
    (Desk.new schema cache).Catalogued :=
  ⟨Table.keptBy_empty, Table.keptBy_empty⟩

/-- No request misplaces a condition or a subscriber. -/
theorem Catalogued.perform (h : d.Catalogued) (q : Request) : (d.perform q).2.Catalogued := by
  let P (b : Rulebook) (e : Distribution) : Prop :=
    b.conditions.KeptBy Condition.id ∧ e.subscribers.KeptBy Subscriber.id
  have hkept : Outlasts P d q := by
    constructor
    case before => exact ⟨h.conditions, h.subscribers⟩
    case saveCondition =>
      intro c book hbook
      obtain ⟨-, rfl⟩ := Rulebook.saveCondition_eq_ok_iff.1 hbook
      exact ⟨h.conditions.insert c, h.subscribers⟩
    case saveRule =>
      intro now extra r saved book hbook
      obtain ⟨-, -, -, rfl⟩ := saveRuleChecked_eq_ok_iff.1 hbook
      exact ⟨h.conditions, h.subscribers⟩
    case deleteRule =>
      intro others id r book _ hbook
      obtain ⟨-, -, -, rfl⟩ := Rulebook.deleteRule_eq_ok_iff.1 hbook
      exact ⟨h.conditions, h.subscribers⟩
    case deleteCondition =>
      intro id c book hbook
      obtain ⟨-, -, rfl⟩ := Rulebook.deleteCondition_eq_ok_iff.1 hbook
      exact ⟨h.conditions.erase id, h.subscribers⟩
    case saveSubscriber => exact fun s => ⟨h.conditions, h.subscribers.insert s⟩
    case saveProduct | saveRoute => exact fun _ => ⟨h.conditions, h.subscribers⟩
  exact ⟨hkept.perform.1, hkept.perform.2⟩

theorem Catalogued.undergo (h : d.Catalogued) (e : Event) : (d.undergo e).Catalogued := by
  cases e with
  | request q => exact h.perform q
  | putVocabulary | removeVocabulary | forgetAll => exact ⟨h.conditions, h.subscribers⟩

theorem Catalogued.afterEvents (h : d.Catalogued) (events : List Event) :
    (d.afterEvents events).Catalogued := by
  unfold Desk.afterEvents
  induction events generalizing d with
  | nil => exact h
  | cons e rest ih => exact ih (h.undergo e)

/-- **After whatever happened to a new desk, exactly the active subscribers are found that own a
product with a rule that depends on a condition that may hold together with the one asked about**,
each once and in order.  The condition only has to be one that can be written as a query. -/
theorem subscribersConcerned_afterEvents (schema : Schema) (cache : CacheSettings)
    (events : List Event) {q : Condition}
    (hq : ((Desk.new schema cache).afterEvents events).checkExpressible q = .ok ()) :
    ∃ ids, ((Desk.new schema cache).afterEvents events).subscribersConcerned q = .ok ids ∧
      ids.Pairwise (· < ·) ∧
      ∀ id, id ∈ ids ↔ ((Desk.new schema cache).afterEvents events).Concerns q id := by
  have horderly := orderly_afterEvents (orderly_new schema cache) events
  have hcatalogued := (catalogued_new schema cache).afterEvents events
  exact hcatalogued.exists_subscribersConcerned horderly.1 hq

theorem schema_afterEvents (h : d.Orderly) {events : List Event}
    (hrequests : ∀ e ∈ events, ∃ q, e = .request q) : (d.afterEvents events).schema = d.schema := by
  unfold Desk.afterEvents
  induction events generalizing d with
  | nil => rfl
  | cons e rest ih =>
    obtain ⟨q, rfl⟩ := hrequests e List.mem_cons_self
    have hrest := ih (h.undergo (.request q)) fun e he => hrequests e (List.mem_cons_of_mem _ he)
    exact hrest.trans (h.schema_perform q)

/-- A subscriber owns a product with a rule that has its condition from a parent. -/
def agencyRun : List Event :=
  [.request (.change (.saveCondition (.ofParts "flood" "headline" .like "flood"))),
    .request (.change (.saveRule default (.new default "floods" "floods" [⟨.ofList ["flood"], ∅⟩]))),
    .request (.change (.saveRule default (.new default "wire" "wire" [⟨∅, .ofList ["floods"]⟩]))),
    .request (.change (.saveProduct ⟨"daily", "daily", some ⟨"wire", .permitting⟩⟩)),
    .request (.change (.saveSubscriber ⟨"agency", "agency", ["daily"], true⟩))]

/-- What is asked about: a condition that is not saved. -/
def floodQuery : Condition := .ofParts "" "headline" .like "flood"

theorem subscribersConcerned_afterEvents_agencyRun :
    ((Desk.new (.ofLayout {}) {}).afterEvents agencyRun).checkExpressible floodQuery = .ok () ∧
    ∃ ids, ((Desk.new (.ofLayout {}) {}).afterEvents agencyRun).subscribersConcerned floodQuery =
        .ok ids ∧ ids.Pairwise (· < ·) ∧
      ∀ id, id ∈ ids ↔
        ((Desk.new (.ofLayout {}) {}).afterEvents agencyRun).Concerns floodQuery id := by
  have hrequests : ∀ e ∈ agencyRun, ∃ q, e = .request q := by simp [agencyRun]
  have hschema := schema_afterEvents (orderly_new (.ofLayout {}) {}) hrequests
  have hnew : (Desk.new (.ofLayout {}) {}).checkExpressible floodQuery = .ok () :=
    eq_ok_of_toOption (by decide +kernel)
  have hq : ((Desk.new (.ofLayout {}) {}).afterEvents agencyRun).checkExpressible floodQuery =
      .ok () := by
    rwa [checkExpressible_eq_ok_iff, hschema, ← checkExpressible_eq_ok_iff]
  exact ⟨hq, subscribersConcerned_afterEvents (.ofLayout {}) {} agencyRun hq⟩

end Desk

end Newswire
