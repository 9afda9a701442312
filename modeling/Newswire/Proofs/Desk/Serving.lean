import Newswire.Proofs.Desk.Held

/-!
# Who gets an item

Subscribers get what some product of theirs passes on, and routes apply to what their rule selects.
The desk decides both step by step, with a memory, and stops as soon as the matter is settled.

* `Desk.PassesOn` : what products pass on, by what evaluation finds now.
* `Desk.Replies` : the desk decides about what is registered, and says of everything else that it is
  not.  It does so in every state that requests lead to, whatever it remembers
  (`Desk.Consistent.replies`).
* `Desk.RepliesRightly` : the decisions are besides what the definitions say.
* `Desk.repliesRightly_after` : **so they are after every run in which the desk could tell the rules
  apart that it was asked about.**
* `Desk.misrouted_after_recreation` : they are not when it was asked about a rule that it could not
  tell apart from the saved one.
-/

namespace Newswire

open Rulebook

namespace Desk

variable {d : Desk} {items : Set Json} {item : Json} {id : String}

/-! ### Decisions made anew -/

/-- The product passes the item on: it has no rule, or one that permits it, or one that does not
block it. -/
inductive PassesOn (d : Desk) (item : Json) (p : Product) : Prop
  /-- There is no rule. -/
  | all : p.rule = none → PassesOn d item p
  /-- The item is permitted. -/
  | permitted {id : String} :
      p.rule = some ⟨id, .permitting⟩ → d.savedHolds id item = .ok true → PassesOn d item p
  /-- The item is not blocked. -/
  | notBlocked {id : String} :
      p.rule = some ⟨id, .blocking⟩ → d.savedHolds id item = .ok false → PassesOn d item p

/-- The subscriber is active, and some product passes the item on. -/
def Serves (d : Desk) (item : Json) (s : Subscriber) : Prop :=
  s.isActive = true ∧ ∃ k ∈ s.products, ∃ p, d.distribution.products.get? k = some p ∧
    d.PassesOn item p

/-- The route has no rule, or one that selects the item. -/
def Routes (d : Desk) (item : Json) (route : Route) : Prop :=
  ∀ k ∈ route.ruleId, d.savedHolds k item = .ok true

theorem exists_savedHolds (hb : d.book.WellFormed) (hsaved : ∃ r, d.book.rules.get? id = some r)
    (item : Json) : ∃ v, d.savedHolds id item = .ok v := by
  obtain ⟨r, hr⟩ := hsaved
  obtain ⟨v, hv, -⟩ := hb.decides_holds hr d.schema item
  refine ⟨v, ?_⟩
  unfold savedHolds
  rw [rule_eq_ok_iff.2 hr]
  exact hv

theorem Consistent.exists_rule_of_product (h : d.Consistent) {k : String} {p : Product}
    (hp : d.distribution.products.get? k = some p) {use : ProductRule} (huse : p.rule = some use) :
    ∃ r, d.book.rules.get? use.ruleId = some r :=
  h.rules (Or.inl ⟨k, p, hp, by rw [Product.ruleId?, huse]; rfl⟩)

theorem Consistent.exists_rule_of_route (h : d.Consistent) {route : Route}
    (hroute : d.distribution.routes.get? id = some route) {k : String}
    (hk : route.ruleId = some k) : ∃ r, d.book.rules.get? k = some r :=
  h.rules (Or.inr ⟨id, route, hroute, hk⟩)

/-- A product with a rule passes on what is accepted by what the rule finds. -/
theorem passesOn_iff {p : Product} {use : ProductRule} (hrule : p.rule = some use) :
    d.PassesOn item p ↔
      ∃ v, d.savedHolds use.ruleId item = .ok v ∧ use.admission.accepts v = true := by
  constructor
  · rintro (hnone | ⟨hsome, hholds⟩ | ⟨hsome, hholds⟩)
    · cases hrule.symm.trans hnone
    · cases hrule.symm.trans hsome
      exact ⟨true, hholds, rfl⟩
    · cases hrule.symm.trans hsome
      exact ⟨false, hholds, rfl⟩
  · rintro ⟨v, hholds, haccepts⟩
    obtain ⟨ruleId, admission⟩ := use
    cases admission with
    | permitting =>
      obtain rfl : v = true := haccepts
      exact .permitted hrule hholds
    | blocking =>
      obtain rfl : v = false := by simpa [Admission.accepts] using haccepts
      exact .notBlocked hrule hholds

theorem Consistent.decides_passes (h : d.Consistent) {k : String} {p : Product}
    (hp : d.distribution.products.get? k = some p) (item : Json) :
    Decides (d.passes p item) (d.PassesOn item p) := by
  unfold passes
  cases hrule : p.rule with
  | none => exact ⟨true, rfl, iff_of_true rfl (.all hrule)⟩
  | some use =>
    obtain ⟨v, hv⟩ := exists_savedHolds h.book (h.exists_rule_of_product hp hrule) item
    refine ⟨use.admission.accepts v, ?_, ?_⟩
    · show use.admission.accepts <$> d.savedHolds use.ruleId item = _
      rw [hv]
      rfl
    · rw [passesOn_iff hrule, hv]
      simp

theorem mem_productsOf {distribution : Distribution} {s : Subscriber} {p : Product} :
    p ∈ distribution.productsOf s ↔ ∃ k ∈ s.products, distribution.products.get? k = some p :=
  List.mem_filterMap

/-- **A registered subscriber gets an item or does not, as the definition says.** -/
theorem Consistent.decides_isServed (h : d.Consistent) {s : Subscriber}
    (hs : d.distribution.subscribers.get? id = some s) (item : Json) :
    Decides (d.isServed id item) (d.Serves item s) := by
  have hproducts : Decides ((d.distribution.productsOf s).anyM fun p => d.passes p item)
      (∃ p ∈ d.distribution.productsOf s, d.PassesOn item p) := by
    refine decides_anyM fun p hp => ?_
    obtain ⟨k, -, hk⟩ := mem_productsOf.1 hp
    exact h.decides_passes hk item
  unfold isServed
  rw [hs]
  cases hactive : s.isActive with
  | false => exact ⟨false, by simp only [hactive]; rfl, by simp [Serves, hactive]⟩
  | true =>
    simp only [hactive]
    refine hproducts.congr ?_
    simp only [mem_productsOf, Serves, hactive, true_and]
    constructor
    · rintro ⟨p, ⟨k, hk, hp⟩, hpasses⟩
      exact ⟨k, hk, p, hp, hpasses⟩
    · rintro ⟨k, hk, p, hp, hpasses⟩
      exact ⟨p, ⟨k, hk, hp⟩, hpasses⟩

/-- **A registered route applies to an item or does not, as the definition says.** -/
theorem Consistent.decides_isRouted (h : d.Consistent) {route : Route}
    (hroute : d.distribution.routes.get? id = some route) (item : Json) :
    Decides (d.isRouted id item) (d.Routes item route) := by
  unfold isRouted
  rw [hroute]
  cases hrule : route.ruleId with
  | none => exact ⟨true, by simp only [hrule], by simp [Routes, hrule]⟩
  | some k =>
    obtain ⟨v, hv⟩ := exists_savedHolds h.book (h.exists_rule_of_route hroute hrule) item
    exact ⟨v, by simp only [hrule, hv], by simp [Routes, hrule, hv]⟩

/-! ### Decisions whatever is remembered -/

/-- The decision has an outcome, whatever is remembered. -/
def Comes {α : Type} (j : Judging α) : Prop := Meets (fun _ _ => True) j fun x => ∃ a, x = .ok a

theorem Comes.bind {α β : Type} {j : Judging α} {k : α → Judging β} (hj : Comes j)
    (hk : ∀ a, Comes (k a)) : Comes (j >>= k) :=
  Meets.bind hj (fun _ ⟨_, ha⟩ => nomatch ha) fun a _ => hk a

theorem comes_pure {α : Type} (a : α) : Comes (pure a) := meets_pure ⟨a, rfl⟩

theorem comes_anyM {α : Type} {xs : List α} {f : α → Judging Bool} (h : ∀ a ∈ xs, Comes (f a)) :
    Comes (xs.anyM f) := by
  induction xs with
  | nil => exact comes_pure false
  | cons a xs ih =>
    refine (h a List.mem_cons_self).bind fun found => ?_
    cases found with
    | true => exact comes_pure true
    | false => exact ih fun b hb => h b (List.mem_cons_of_mem _ hb)

theorem comes_savedSelects (hb : d.book.WellFormed) (hsaved : ∃ r, d.book.rules.get? id = some r)
    (item : Json) (memory : Bool) : Comes (d.savedSelects id item memory) := by
  obtain ⟨r, hr⟩ := hsaved
  obtain ⟨v, hv, -⟩ := hb.decides_holds hr d.schema item
  unfold savedSelects
  rw [rule_eq_ok_iff.2 hr]
  exact meets_selects ⟨v, hv⟩ (fun _ _ => trivial) (fun _ _ => ⟨_, rfl⟩) memory

theorem Consistent.comes_receives (h : d.Consistent) {s : Subscriber}
    (hs : d.distribution.subscribers.get? id = some s) (item : Json) :
    Comes (d.receives id item) := by
  unfold receives
  rw [hs]
  cases hactive : s.isActive with
  | false => simp only [hactive]; exact comes_pure false
  | true =>
    simp only [hactive]
    refine comes_anyM fun p hp => ?_
    obtain ⟨k, -, hk⟩ := mem_productsOf.1 hp
    unfold accepts
    cases hrule : p.rule with
    | none => exact comes_pure true
    | some use =>
      exact (comes_savedSelects h.book (h.exists_rule_of_product hk hrule) item true).bind
        fun _ => comes_pure _

theorem Consistent.comes_applies (h : d.Consistent) {route : Route}
    (hroute : d.distribution.routes.get? id = some route) (item : Json) :
    Comes (d.applies id item) := by
  unfold applies
  rw [hroute]
  cases hrule : route.ruleId with
  | none => simp only [hrule]; exact comes_pure true
  | some k =>
    simp only [hrule]
    exact comes_savedSelects h.book (h.exists_rule_of_route hroute hrule) item true

/-! ### What the desk replies -/

/-- The desk decides about subscribers and routes that are registered, and says of others that they
are not. -/
structure Replies (d : Desk) (item : Json) (id : String) : Prop where
  /-- A subscriber gets the item or does not. -/
  receives : ∀ s, d.distribution.subscribers.get? id = some s →
    ∃ v, (d.perform (.ask (.receives id item))).1 = .ok (.verdict v)
  /-- There is no such subscriber. -/
  no_subscriber : d.distribution.subscribers.get? id = none →
    (d.perform (.ask (.receives id item))).1 = .error (.notFound .subscriber id)
  /-- A route applies to the item or does not. -/
  applies : ∀ route, d.distribution.routes.get? id = some route →
    ∃ v, (d.perform (.ask (.applies id item))).1 = .ok (.verdict v)
  /-- There is no such route. -/
  no_route : d.distribution.routes.get? id = none →
    (d.perform (.ask (.applies id item))).1 = .error (.notFound .route id)

/-- The desk decides about subscribers and routes as the definitions say. -/
structure RepliesRightly (d : Desk) (item : Json) (id : String) : Prop extends Replies d item id where
  /-- Subscribers get what some product of theirs passes on. -/
  receives_iff : ∀ s, d.distribution.subscribers.get? id = some s →
    ((d.perform (.ask (.receives id item))).1 = .ok (.verdict true) ↔ d.Serves item s)
  /-- Routes apply to what their rule selects. -/
  applies_iff : ∀ route, d.distribution.routes.get? id = some route →
    ((d.perform (.ask (.applies id item))).1 = .ok (.verdict true) ↔ d.Routes item route)

theorem Comes.told {j : Judging Bool} (h : Comes j) (v : Verdicts) :
    ∃ a, ((do return Answer.verdict (← j)).run v).1 = .ok (.verdict a) := by
  obtain ⟨⟨a, ha⟩, -⟩ := h v fun _ _ _ => trivial
  exact ⟨a, fst_run_told ha Answer.verdict⟩

/-- **The desk decides about everything that is registered**, whatever it remembers. -/
theorem Consistent.replies (h : d.Consistent) (item : Json) (id : String) : d.Replies item id where
  receives _ hs := (h.comes_receives hs item).told d.verdicts
  no_subscriber hnone := by
    have hreceives : d.receives id item = throw (.notFound .subscriber id) := by
      unfold receives
      rw [hnone]
    show ((do return Answer.verdict (← d.receives id item)).run d.verdicts).1 = _
    rw [hreceives]
    rfl
  applies _ hroute := (h.comes_applies hroute item).told d.verdicts
  no_route hnone := by
    have happlies : d.applies id item = throw (.notFound .route id) := by
      unfold applies
      rw [hnone]
    show ((do return Answer.verdict (← d.applies id item)).run d.verdicts).1 = _
    rw [happlies]
    rfl

theorem Decides.told_iff {x : Except RuleError Bool} {P : Prop} (h : Decides x P) :
    Answer.verdict <$> x = .ok (.verdict true) ↔ P := by
  obtain ⟨v, rfl, hP⟩ := h
  rw [← hP]
  constructor
  · intro heq
    exact Answer.verdict.inj (Except.ok.inj heq)
  · rintro rfl
    rfl

theorem Trusty.repliesRightly (h : d.Trusty items) (hd : d.Consistent) (hitems : Identified items)
    (hitem : item ∈ items) (id : String) : d.RepliesRightly item id where
  toReplies := hd.replies item id
  receives_iff s hs := by
    rw [h.answer_eq hitems (q := .receives id item) hitem]
    exact Decides.told_iff (hd.decides_isServed hs item)
  applies_iff route hroute := by
    rw [h.answer_eq hitems (q := .applies id item) hitem]
    exact Decides.told_iff (hd.decides_isRouted hroute item)

/-- **After every run of requests the desk decides about everything that is registered, and says of
everything else that it is not.  The decisions are what the definitions say** by what evaluation
finds, when the desk could tell the rules apart that it was asked about. -/
theorem repliesRightly_after (schema : Schema) (cache : CacheSettings) (requests : List Request)
    (item : Json) (id : String) : ((Desk.new schema cache).after requests).Replies item id ∧
      ∀ items : Set Json, Identified items → item ∈ items →
        (Desk.new schema cache).PermitsAll items requests →
          ((Desk.new schema cache).after requests).RepliesRightly item id := by
  have hconsistent := consistent_after schema cache requests
  refine ⟨hconsistent.replies item id, fun items hitems hitem hrun => ?_⟩
  exact (trusty_after hitems schema cache hrun).repliesRightly hconsistent hitems hitem id

theorem repliesRightly_after_replacingRun : ∃ r, heldDesk.book.rules.get? r.id = some r ∧
    Identified {wetItem} ∧ (Desk.new (.ofLayout {}) {}).PermitsAll {wetItem}
      ((floodRun ++ replacingRun) ++ [.ask (.selects (some r) wetItem false)]) ∧
    ((Desk.new (.ofLayout {}) {}).after ((floodRun ++ replacingRun) ++
      [.ask (.selects (some r) wetItem false)])).RepliesRightly wetItem "desk" := by
  have hitems := identified_singleton wetItem
  obtain ⟨r, hr, hpermits, hdiscerns⟩ := exists_replaced
  have hrun : (Desk.new (.ofLayout {}) {}).PermitsAll {wetItem}
      ((floodRun ++ replacingRun) ++ [.ask (.selects (some r) wetItem false)]) := by
    refine permitsAll_append.2 ⟨hpermits, ⟨rfl, fun rule hrule => ?_⟩, trivial⟩
    obtain rfl := Option.some.inj hrule
    exact hdiscerns
  exact ⟨r, hr, hitems, hrun,
    (repliesRightly_after (.ofLayout {}) {} _ wetItem "desk").2 {wetItem} hitems rfl hrun⟩

/-- **A route applies to an item although its rule does not select it**, when the desk was asked about
a deleted rule that it does not tell apart from the saved one. -/
theorem misrouted_after_recreation : Identified {wetItem} ∧
    ∃ r, ((Desk.new (.ofLayout {}) {}).after floodRun).book.rules.get? "wire" = some r ∧
      ∃ d, d = (Desk.new (.ofLayout {}) {}).after ((floodRun ++ recreatingRun) ++
          [.ask (.selects (some r) wetItem false)]) ∧
        (d.perform (.ask (.applies "desk" wetItem))).1 = .ok (.verdict true) ∧
        d.distribution.routes.get? "desk" = some wireRoute ∧
        ¬d.Routes wetItem wireRoute := by
  obtain ⟨r, w, w', hr, hid, hasked, hselects⟩ := exists_confused
  have hafter : (Desk.new (.ofLayout {}) {}).after ((floodRun ++ recreatingRun) ++
      [.ask (.selects (some r) wetItem false)]) = { recreatedDesk with verdicts := w } := by
    rw [after_append]
    exact hasked
  have hroute : recreatedDesk.distribution.routes.get? "desk" = some wireRoute := by
    decide +kernel
  refine ⟨identified_singleton wetItem, r, hid ▸ hr, _, hafter.symm, ?_, hroute, ?_⟩
  · have happlies : recreatedDesk.applies "desk" wetItem =
        recreatedDesk.savedSelects "wire" wetItem true := by
      unfold applies
      rw [hroute]
      rfl
    exact fst_run_told ((congrArg (fun j => (j.run w).1) happlies).trans
      (congrArg Prod.fst hselects)) Answer.verdict
  · intro hroutes
    cases savedHolds_recreatedDesk.symm.trans (hroutes "wire" rfl)

end Desk

end Newswire
