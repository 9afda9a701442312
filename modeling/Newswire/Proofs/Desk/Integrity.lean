import Newswire.Proofs.Desk.Runs

/-!
# The integrity of a desk

Whatever a desk is asked to do, and whether or not it succeeds, what is saved stays in order.

* `Desk.Linked` : products and routes name saved rules, and subscribers registered products.
* `Desk.Effect` : everything that a change does to the desk, stated once (`Desk.change_effect`).
* `Desk.consistent_after` : **after every run of requests on a new desk, the rulebook is well-formed
  and everything that is named is saved**, also when the rulebook was changed past the desk.
* `Desk.usable_after` : **every saved rule can be compiled and evaluated** after a run of
  requests at the desk, however its conditions and parents were saved anew.
-/

namespace Newswire

open Rulebook

/-! ### What products, routes and subscribers name -/

/-- A product or a route names the rule. -/
def Distribution.Uses (d : Distribution) (k : String) : Prop :=
  (∃ id p, d.products.get? id = some p ∧ p.ruleId? = some k) ∨
    ∃ id r, d.routes.get? id = some r ∧ r.ruleId = some k

theorem Distribution.usersOf_eq_nil_iff {d : Distribution} {k : String} :
    d.usersOf k = [] ↔ ¬d.Uses k := by
  simp only [usersOf, List.append_eq_nil_iff, List.map_eq_nil_iff, List.filter_eq_nil_iff,
    Table.mem_values_iff, beq_iff_eq, Uses, not_or, not_exists, not_and]
  constructor
  · rintro ⟨hp, hr⟩
    exact ⟨fun id p h => hp p ⟨id, h⟩, fun id r h => hr r ⟨id, h⟩⟩
  · rintro ⟨hp, hr⟩
    exact ⟨fun p ⟨id, h⟩ => hp id p h, fun r ⟨id, h⟩ => hr id r h⟩

namespace Desk

/-- Everything that the distribution names is saved. -/
structure Linked (d : Desk) : Prop where
  /-- The rules of the products and routes. -/
  rules : ∀ {k}, d.distribution.Uses k → ∃ r, d.book.rules.get? k = some r
  /-- The products of the subscribers. -/
  products : ∀ {id s}, d.distribution.subscribers.get? id = some s → ∀ k ∈ s.products,
    ∃ p, d.distribution.products.get? k = some p

variable {d d' : Desk} {book : Rulebook} {c : Condition} {r saved : Rule} {now : Timestamp}
  {id : String}

theorem linked_new (schema : Schema) (cache : CacheSettings) : (Desk.new schema cache).Linked where
  rules h := by
    rcases h with ⟨id, p, hp, -⟩ | ⟨id, r, hr, -⟩
    · cases hp
    · cases hr
  products h := by cases h

/-- A change of the rulebook keeps the links when the rules that are named stay saved. -/
theorem Linked.of_rules (h : d.Linked) (hdistribution : d'.distribution = d.distribution)
    (hrules : ∀ k, d.distribution.Uses k → (∃ r, d.book.rules.get? k = some r) →
      ∃ r, d'.book.rules.get? k = some r) : d'.Linked where
  rules hk := by
    rw [hdistribution] at hk
    exact hrules _ hk (h.rules hk)
  products hs := by
    rw [hdistribution] at hs ⊢
    exact h.products hs

theorem Linked.saveProduct {p : Product} (h : d.Linked) (hp : d.saveProduct p = .ok d') :
    d'.Linked := by
  obtain ⟨hrule, rfl⟩ := saveProduct_eq_ok_iff.1 hp
  refine ⟨fun {k} hk => ?_, fun {id s} hs k hk => ?_⟩
  · rcases hk with ⟨id, q, hq, hqk⟩ | hk
    · rcases Table.get?_insert_eq_some_iff.1 hq with ⟨-, rfl⟩ | ⟨-, hq⟩
      · exact hrule k hqk
      · exact h.rules (Or.inl ⟨id, q, hq, hqk⟩)
    · exact h.rules (Or.inr hk)
  · exact Table.exists_get?_insert p (h.products hs k hk)

theorem Linked.saveRoute {route : Route} (h : d.Linked) (hr : d.saveRoute route = .ok d') :
    d'.Linked := by
  obtain ⟨hrule, rfl⟩ := saveRoute_eq_ok_iff.1 hr
  refine ⟨fun {k} hk => ?_, h.products⟩
  rcases hk with hk | ⟨id, q, hq, hqk⟩
  · exact h.rules (Or.inl hk)
  · rcases Table.get?_insert_eq_some_iff.1 hq with ⟨-, rfl⟩ | ⟨-, hq⟩
    · exact hrule k hqk
    · exact h.rules (Or.inr ⟨id, q, hq, hqk⟩)

theorem Linked.saveSubscriber {s : Subscriber} (h : d.Linked)
    (hs : d.saveSubscriber s = .ok d') : d'.Linked := by
  obtain ⟨hproducts, rfl⟩ := saveSubscriber_eq_ok_iff.1 hs
  refine ⟨h.rules, fun {id t} ht k hk => ?_⟩
  rcases Table.get?_insert_eq_some_iff.1 ht with ⟨-, rfl⟩ | ⟨-, ht⟩
  · exact hproducts k hk
  · exact h.products ht k hk

end Desk

/-! ### Rules that stay saved -/

namespace Rulebook

variable {b b' : Rulebook} {r saved : Rule} {c : Condition} {now : Timestamp} {k : String}

theorem exists_rule_of_saveCondition (h : b.saveCondition c = .ok b')
    (hk : ∃ r, b.rules.get? k = some r) : ∃ r, b'.rules.get? k = some r := by
  obtain ⟨-, rfl⟩ := saveCondition_eq_ok_iff.1 h
  exact hk

theorem exists_rule_of_saveRuleChecked {extra : Rule → Except RuleError Unit}
    (h : b.saveRuleChecked now extra r = .ok (saved, b'))
    (hk : ∃ r, b.rules.get? k = some r) : ∃ r, b'.rules.get? k = some r := by
  obtain ⟨-, -, -, rfl⟩ := saveRuleChecked_eq_ok_iff.1 h
  exact Table.exists_get?_insert saved hk

end Rulebook

namespace Desk

/-! ### Changes -/

/-- What a change of the desk does.  The verdicts on the rules in `concerned` are forgotten. -/
structure Effect (d d' : Desk) (concerned : IdSet) : Prop where
  /-- The meaning of the fields stays. -/
  schema : d'.schema = d.schema
  /-- The rulebook is sound. -/
  sound : d'.book.Sound
  /-- All other rules are spared. -/
  spares : Spares d.book d'.book (· ∉ concerned)
  /-- Verdicts are forgotten. -/
  verdicts : d'.verdicts = d.verdicts.forget concerned
  /-- Conditions that are new can be written as queries. -/
  conditions : ∀ {id c}, d'.book.conditions.get? id = some c →
    d.book.conditions.get? id = some c ∨ d.checkExpressible c = .ok ()
  /-- The links are kept. -/
  linked : d.Linked → d'.Linked

variable {d d' : Desk} {c : Condition} {r saved : Rule} {now : Timestamp} {id : String}

theorem Effect.of_distribution (hb : d.book.Sound) {distribution : Distribution}
    (hlinked : d.Linked → Linked { d with distribution }) :
    Effect d { d with distribution } ∅ where
  schema := rfl
  sound := hb
  spares := ⟨fun _ => rfl, fun _ _ _ _ => rfl, fun _ _ k _ => IdSet.not_mem_empty k⟩
  verdicts := rfl
  conditions := Or.inl
  linked := hlinked

theorem effect_saveCondition (hb : d.book.Sound) (h : d.saveCondition c = .ok d') :
    ∃ concerned, Effect d d' concerned := by
  obtain ⟨book, hbook, hc, rfl⟩ := saveCondition_eq_ok_iff.1 h
  refine ⟨_, rfl, hb.saveCondition hbook, hb.spares_saveCondition hbook, rfl, fun {id k} hk => ?_,
    fun hl => hl.of_rules rfl fun k _ => exists_rule_of_saveCondition hbook⟩
  -- the condition that is new has just been checked
  obtain ⟨-, rfl⟩ := Rulebook.saveCondition_eq_ok_iff.1 hbook
  rcases Table.get?_insert_eq_some_iff.1 hk with ⟨-, rfl⟩ | ⟨-, hk⟩
  · exact Or.inr hc
  · exact Or.inl hk

theorem effect_saveRule (hb : d.book.Sound) (h : d.saveRule now r = .ok (saved, d')) :
    ∃ concerned, Effect d d' concerned := by
  obtain ⟨book, hbook, rfl⟩ := saveRule_eq_ok_iff.1 h
  refine ⟨_, rfl, hb.saveRuleChecked hbook, hb.spares_saveRuleChecked hbook, rfl,
    fun {id k} hk => ?_, fun hl => hl.of_rules rfl fun k _ => exists_rule_of_saveRuleChecked hbook⟩
  obtain ⟨-, -, -, rfl⟩ := saveRuleChecked_eq_ok_iff.1 hbook
  exact Or.inl hk

theorem effect_deleteRule (hb : d.book.Sound) (h : d.deleteRule id = .ok (r, d')) :
    ∃ concerned, Effect d d' concerned := by
  obtain ⟨book, hbook, rfl⟩ := deleteRule_eq_ok_iff.1 h
  have hspares := hb.spares_deleteRule hbook
  have hsound := hb.deleteRule hbook
  obtain ⟨-, -, hothers, rfl⟩ := Rulebook.deleteRule_eq_ok_iff.1 hbook
  refine ⟨_, rfl, hsound, hspares, rfl, Or.inl, fun hl => hl.of_rules rfl fun k hk hsaved => ?_⟩
  -- no product and no route names the rule that is gone
  have hid : k ≠ id := by
    rintro rfl
    exact Distribution.usersOf_eq_nil_iff.1 hothers hk
  obtain ⟨p, hp⟩ := hsaved
  exact ⟨p, Table.get?_erase_eq_some_iff.2 ⟨hid, hp⟩⟩

theorem effect_deleteCondition (hb : d.book.Sound) (h : d.deleteCondition id = .ok (c, d')) :
    ∃ concerned, Effect d d' concerned := by
  obtain ⟨book, hbook, rfl⟩ := deleteCondition_eq_ok_iff.1 h
  have hspares := hb.spares_deleteCondition hbook
  have hsound := hb.deleteCondition hbook
  obtain ⟨-, -, rfl⟩ := Rulebook.deleteCondition_eq_ok_iff.1 hbook
  refine ⟨∅, rfl, hsound, hspares, rfl, fun {k c} hk => ?_, fun hl => hl.of_rules rfl fun _ _ h => h⟩
  exact Or.inl (Table.get?_erase_eq_some_iff.1 hk).2

/-- **Everything that a change does.** -/
theorem change_effect (hb : d.book.Sound) {change : Change} {a : Answer}
    (h : d.change change = .ok (a, d')) : ∃ concerned, Effect d d' concerned := by
  cases change with
  | saveCondition c =>
    obtain ⟨e, he, ⟨⟩⟩ := bind_eq_ok_iff.1 h
    exact effect_saveCondition hb he
  | saveRule now r =>
    obtain ⟨⟨saved, e⟩, he, ⟨⟩⟩ := bind_eq_ok_iff.1 h
    exact effect_saveRule hb he
  | deleteRule id =>
    obtain ⟨⟨removed, e⟩, he, ⟨⟩⟩ := bind_eq_ok_iff.1 h
    exact effect_deleteRule hb he
  | deleteCondition id =>
    obtain ⟨⟨removed, e⟩, he, ⟨⟩⟩ := bind_eq_ok_iff.1 h
    exact effect_deleteCondition hb he
  | saveProduct p =>
    obtain ⟨e, he, ⟨⟩⟩ := bind_eq_ok_iff.1 h
    obtain ⟨-, rfl⟩ := saveProduct_eq_ok_iff.1 he
    exact ⟨∅, .of_distribution hb fun hl => hl.saveProduct he⟩
  | saveSubscriber s =>
    obtain ⟨e, he, ⟨⟩⟩ := bind_eq_ok_iff.1 h
    obtain ⟨-, rfl⟩ := saveSubscriber_eq_ok_iff.1 he
    exact ⟨∅, .of_distribution hb fun hl => hl.saveSubscriber he⟩
  | saveRoute r =>
    obtain ⟨e, he, ⟨⟩⟩ := bind_eq_ok_iff.1 h
    obtain ⟨-, rfl⟩ := saveRoute_eq_ok_iff.1 he
    exact ⟨∅, .of_distribution hb fun hl => hl.saveRoute he⟩

/-! ### Links and graphs stay in order -/

/-- Everything that is saved is in order, and everything that is named is saved. -/
structure Consistent (d : Desk) : Prop extends Linked d where
  /-- The conditions and rules. -/
  book : d.book.WellFormed

/-- What is kept by every request: the index of users is exact besides. -/
def Orderly (d : Desk) : Prop := d.book.Sound ∧ d.Linked

theorem Orderly.changeBook (h : d.Orderly) {change : BookChange} {a : Answer}
    (hchange : d.changeBook change = .ok (a, d')) : d'.Orderly := by
  obtain ⟨hb, hl⟩ := h
  cases change with
  | saveCondition c =>
    obtain ⟨book, hbook, ⟨⟩⟩ := bind_eq_ok_iff.1 hchange
    exact ⟨hb.saveCondition hbook, hl.of_rules rfl fun _ _ => exists_rule_of_saveCondition hbook⟩
  | saveRule now r =>
    obtain ⟨⟨saved, book⟩, hbook, ⟨⟩⟩ := bind_eq_ok_iff.1 hchange
    exact ⟨hb.saveRuleChecked hbook,
      hl.of_rules rfl fun _ _ => exists_rule_of_saveRuleChecked hbook⟩

/-- No request, whether it succeeds or fails, breaks the order. -/
theorem Orderly.perform (h : d.Orderly) (q : Request) : (d.perform q).2.Orderly := by
  cases q with
  | change change =>
    refine settle_induction (fun a d' hchange => ?_) h
    obtain ⟨concerned, heffect⟩ := change_effect h.1 hchange
    exact ⟨heffect.sound, heffect.linked h.2⟩
  | changeBook change => exact settle_induction (fun a d' hchange => h.changeBook hchange) h
  | ask question => exact ⟨h.1, h.2.of_rules rfl fun _ _ h => h⟩

theorem Orderly.schema_perform (h : d.Orderly) (q : Request) :
    (d.perform q).2.schema = d.schema := by
  cases q with
  | change change =>
    refine settle_induction (P := fun d' => d'.schema = d.schema) (fun a d' hchange => ?_) rfl
    obtain ⟨concerned, heffect⟩ := change_effect h.1 hchange
    exact heffect.schema
  | changeBook change =>
    refine settle_induction (P := fun d' => d'.schema = d.schema) (fun a d' hchange => ?_) rfl
    cases change with
    | saveCondition c =>
      obtain ⟨book, -, ⟨⟩⟩ := bind_eq_ok_iff.1 hchange
      rfl
    | saveRule now r =>
      obtain ⟨⟨saved, book⟩, -, ⟨⟩⟩ := bind_eq_ok_iff.1 hchange
      rfl
  | ask question => rfl

theorem orderly_new (schema : Schema) (cache : CacheSettings) : (Desk.new schema cache).Orderly :=
  ⟨.empty, linked_new schema cache⟩

/-- **After any requests to a new desk, whether they succeeded or failed, everything that is saved is
in order and everything that is named is saved.** -/
theorem consistent_after (schema : Schema) (cache : CacheSettings) (requests : List Request) :
    ((Desk.new schema cache).after requests).Consistent := by
  have horderly : ((Desk.new schema cache).after requests).Orderly :=
    after_induction (fun q _ d h => h.perform q) (orderly_new schema cache)
  exact ⟨horderly.2, horderly.1.toWellFormed⟩

/-! ### Saved rules can be used -/

/-- The request is made at the desk and not past it. -/
def Request.AtDesk : Request → Prop
  | .changeBook _ => False
  | .change _ | .ask _ => True

/-- The rule can be compiled to either kind of query, and evaluated on every item. -/
structure Usable (d : Desk) (r : Rule) : Prop where
  /-- There is a store query. -/
  store : ∃ q, d.storeQuery (some r) = .ok q
  /-- There is a search query. -/
  search : ∃ q, d.searchQuery (some r) = .ok q
  /-- Evaluation does not fail. -/
  verdict : ∀ item, ∃ v, d.book.holds d.schema item (some r) = .ok v

/-- Every saved condition can be written as a query of either kind. -/
def Expressible (d : Desk) : Prop :=
  ∀ id c, d.book.conditions.get? id = some c → d.checkExpressible c = .ok ()

theorem checkExpressible_eq_ok_iff : d.checkExpressible c = .ok () ↔
    Compiles d.schema StoreQuery.target c ∧ Compiles d.schema SearchQuery.target c := by
  simp only [checkExpressible, Compiles]
  show _ ↔ (∃ q, StoreQuery.condition d.schema.layout (d.schema.resolve c.field) c = .ok q) ∧
    ∃ q, SearchQuery.condition d.schema.layout (d.schema.resolve c.field) c = .ok q
  cases StoreQuery.condition d.schema.layout (d.schema.resolve c.field) c with
  | error e => exact iff_of_false (fun h => nomatch h) (fun ⟨⟨_, h⟩, _⟩ => nomatch h)
  | ok store =>
    cases SearchQuery.condition d.schema.layout (d.schema.resolve c.field) c with
    | error e => exact iff_of_false (fun h => nomatch h) (fun ⟨_, _, h⟩ => nomatch h)
    | ok search => exact iff_of_true rfl ⟨⟨store, rfl⟩, search, rfl⟩

/-- Only the conditions that can be written have to be looked at when a rule is compiled. -/
theorem Expressible.exists_queries (h : d.Expressible)
    (hwalk : ∀ fits : Condition → Prop,
      (∀ {id c}, d.book.conditions.get? id = some c → fits c) → d.book.Walkable fits .empty r) :
    (∃ q, d.storeQuery (some r) = .ok q) ∧ ∃ q, d.searchQuery (some r) = .ok q := by
  constructor
  · refine (hwalk _ fun {id c} hc => ?_).exists_compileFrom
    exact (checkExpressible_eq_ok_iff.1 (h id c hc)).1
  · refine (hwalk _ fun {id c} hc => ?_).exists_compileFrom
    exact (checkExpressible_eq_ok_iff.1 (h id c hc)).2

theorem Expressible.usable (h : d.Expressible) (hb : d.book.WellFormed)
    (hr : d.book.rules.get? id = some r) : d.Usable r where
  store := (h.exists_queries fun _ hfits => hb.walkable_saved hfits hr).1
  search := (h.exists_queries fun _ hfits => hb.walkable_saved hfits hr).2
  verdict item := by
    obtain ⟨v, hv, -⟩ := hb.decides_holds hr d.schema item
    exact ⟨v, hv⟩

theorem Expressible.perform (h : d.Expressible) (hb : d.book.Sound) {q : Request}
    (hq : q.AtDesk) : (d.perform q).2.Expressible := by
  cases q with
  | change change =>
    refine settle_induction (fun a d' hchange => ?_) h
    obtain ⟨concerned, heffect⟩ := change_effect hb hchange
    intro id c hc
    -- whether a condition can be written depends on the schema alone
    rw [checkExpressible_eq_ok_iff, heffect.schema, ← checkExpressible_eq_ok_iff]
    exact (heffect.conditions hc).elim (h id c) fun hnew => hnew
  | changeBook change => exact hq.elim
  | ask question => exact h

/-- **Every saved rule can be compiled and evaluated after any requests at a new desk**, also when
its conditions and parents have been saved anew since. -/
theorem usable_after (schema : Schema) (cache : CacheSettings) {requests : List Request}
    (hdesk : ∀ q ∈ requests, q.AtDesk) {id : String} {r : Rule}
    (hr : ((Desk.new schema cache).after requests).book.rules.get? id = some r) :
    ((Desk.new schema cache).after requests).Usable r := by
  have hkept : ((Desk.new schema cache).after requests).Orderly ∧
      ((Desk.new schema cache).after requests).Expressible := by
    refine @after_induction (fun d => d.Orderly ∧ d.Expressible) _ (fun q hq d hd => ?_) _
      ⟨orderly_new schema cache, fun _ _ hc => nomatch hc⟩
    exact ⟨hd.1.perform q, hd.2.perform hd.1.1 (hdesk q hq)⟩
  exact hkept.2.usable hkept.1.1.toWellFormed hr

/-- A rule is saved, and then its condition in another form. -/
def changedRun : List Request :=
  [.change (.saveCondition (.ofParts "flood" "headline" .like "flood")),
    .change (.saveRule default (.new default "wire" "wire" [⟨.ofList ["flood"], ∅⟩])),
    .change (.saveCondition (.ofParts "flood" "topics" .notIn "sport, 12"))]

theorem usable_after_changedRun : (∀ q ∈ changedRun, q.AtDesk) ∧
    ∃ r, ((Desk.new (.ofLayout {}) {}).after changedRun).book.rules.get? "wire" = some r ∧
      ((Desk.new (.ofLayout {}) {}).after changedRun).Usable r := by
  have hdesk : ∀ q ∈ changedRun, q.AtDesk := by simp [changedRun, Request.AtDesk]
  have hsaved :
      (((Desk.new (.ofLayout {}) {}).after changedRun).book.rules.get? "wire").isSome = true := by
    decide +kernel
  obtain ⟨r, hr⟩ := Option.isSome_iff_exists.1 hsaved
  exact ⟨hdesk, r, hr, usable_after (.ofLayout {}) {} hdesk hr⟩

end Desk

end Newswire
