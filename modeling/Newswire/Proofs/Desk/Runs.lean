import Newswire.Desk.Maintenance
import Newswire.Proofs.Rulebook.Upkeep

/-!
# Runs of a desk

A desk is used by one request after another: changes of what is saved, and questions about items.
A request that fails leaves everything that is saved as it is.

* `Desk.perform`, `Desk.after`, `Desk.answers` : one request, and what comes of many.
* `Desk.saveProduct_eq_ok_iff` and the like : when a change is made, and what it makes.
* `Desk.after_induction` : what every request of a run keeps holds after the run.
* `Desk.Outlasts.perform` : what the operations on the tables keep holds after a request.
-/

namespace Newswire

open Rulebook

namespace Desk

/-! ### Requests -/

/-- A change of what is saved. -/
inductive Change where
  /-- Save a condition. -/
  | saveCondition (c : Condition)
  /-- Save a rule at a given time. -/
  | saveRule (now : Timestamp) (r : Rule)
  /-- Delete a rule. -/
  | deleteRule (id : String)
  /-- Delete a condition. -/
  | deleteCondition (id : String)
  /-- Save a product. -/
  | saveProduct (p : Product)
  /-- Save a subscriber. -/
  | saveSubscriber (s : Subscriber)
  /-- Save a route. -/
  | saveRoute (r : Route)

/-- A change of the rulebook alone, of which the rest of the desk does not learn. -/
inductive BookChange where
  /-- Save a condition. -/
  | saveCondition (c : Condition)
  /-- Save a rule at a given time. -/
  | saveRule (now : Timestamp) (r : Rule)

/-- A question about items. -/
inductive Question where
  /-- Does the rule select the item?  With `memory` a remembered verdict is taken. -/
  | selects (r : Option Rule) (item : Json) (memory : Bool)
  /-- Does the saved rule select the item? -/
  | savedSelects (id : String) (item : Json) (memory : Bool)
  /-- Which of the items does the saved rule select? -/
  | filterItems (id : String) (items : List Json)
  /-- Does the subscriber get the item? -/
  | receives (id : String) (item : Json)
  /-- Does the route apply to the item? -/
  | applies (id : String) (item : Json)

/-- What a desk is asked to do. -/
inductive Request where
  /-- Change what is saved. -/
  | change (c : Change)
  /-- Change the rulebook alone. -/
  | changeBook (c : BookChange)
  /-- Answer a question. -/
  | ask (q : Question)

/-- What a desk answers. -/
inductive Answer where
  /-- It is done. -/
  | done
  /-- The condition that was saved or deleted. -/
  | condition (c : Condition)
  /-- The rule that was saved or deleted. -/
  | rule (r : Rule)
  /-- A decision. -/
  | verdict (v : Bool)
  /-- The selected items. -/
  | items (items : List Json)

/-- Carry out a change. -/
def change (d : Desk) : Change → Except RuleError (Answer × Desk)
  | .saveCondition c => do return (.condition c, ← d.saveCondition c)
  | .saveRule now r => do
    let (saved, d') ← d.saveRule now r
    return (.rule saved, d')
  | .deleteRule id => do
    let (removed, d') ← d.deleteRule id
    return (.rule removed, d')
  | .deleteCondition id => do
    let (removed, d') ← d.deleteCondition id
    return (.condition removed, d')
  | .saveProduct p => do return (.done, ← d.saveProduct p)
  | .saveSubscriber s => do return (.done, ← d.saveSubscriber s)
  | .saveRoute r => do return (.done, ← d.saveRoute r)

/-- Carry out a change of the rulebook alone. -/
def changeBook (d : Desk) : BookChange → Except RuleError (Answer × Desk)
  | .saveCondition c => do
    let book ← d.book.saveCondition c
    return (.condition c, { d with book })
  | .saveRule now r => do
    let (saved, book) ← d.book.saveRule now r
    return (.rule saved, { d with book })

/-- Answer a question. -/
def answer (d : Desk) : Question → Judging Answer
  | .selects r item memory => do return .verdict (← d.selects r item memory)
  | .savedSelects id item memory => do return .verdict (← d.savedSelects id item memory)
  | .filterItems id items => do return .items (← d.filterItems id items)
  | .receives id item => do return .verdict (← d.receives id item)
  | .applies id item => do return .verdict (← d.applies id item)

/-- Take over the desk after a change, or keep the one before when it fails. -/
def settle (d : Desk) (x : Except RuleError (Answer × Desk)) : Except RuleError Answer × Desk :=
  match x with
  | .ok (a, d') => (.ok a, d')
  | .error e => (.error e, d)

/-- Do what is asked. -/
def perform (d : Desk) : Request → Except RuleError Answer × Desk
  | .change c => d.settle (d.change c)
  | .changeBook c => d.settle (d.changeBook c)
  | .ask q => d.run (d.answer q)

/-- The desk after a run of requests. -/
def after (d : Desk) (requests : List Request) : Desk :=
  requests.foldl (fun d q => (d.perform q).2) d

/-- The answers to a run of requests. -/
def answers (d : Desk) : List Request → List (Except RuleError Answer)
  | [] => []
  | q :: rest => (d.perform q).1 :: (d.perform q).2.answers rest

/-! ### What the changes do -/

variable {d d' : Desk} {c : Condition} {r saved : Rule} {now : Timestamp} {id : String}

theorem saveCondition_eq_ok_iff : d.saveCondition c = .ok d' ↔
    ∃ book, d.book.saveCondition c = .ok book ∧ d.checkExpressible c = .ok () ∧
      d' = { d with
        book, verdicts := d.verdicts.forget (book.dependents.usersOfCondition c.id true) } := by
  simp only [saveCondition, bind_eq_ok_iff]
  constructor
  · rintro ⟨book, hbook, ⟨⟩, hc, h⟩
    exact ⟨book, hbook, hc, (Except.ok.inj h).symm⟩
  · rintro ⟨book, hbook, hc, rfl⟩
    exact ⟨book, hbook, (), hc, rfl⟩

theorem saveRule_eq_ok_iff : d.saveRule now r = .ok (saved, d') ↔
    ∃ book, d.book.saveRuleChecked now d.checkCompiles r = .ok (saved, book) ∧
      d' = { d with
        book, verdicts := d.verdicts.forget
          ((book.dependents.usersOfRule saved.id true).insert saved.id) } := by
  simp only [saveRule, bind_eq_ok_iff]
  constructor
  · rintro ⟨⟨saved, book⟩, hbook, h⟩
    obtain ⟨rfl, rfl⟩ := Prod.mk.inj (Except.ok.inj h)
    exact ⟨book, hbook, rfl⟩
  · rintro ⟨book, hbook, rfl⟩
    exact ⟨(saved, book), hbook, rfl⟩

theorem deleteRule_eq_ok_iff : d.deleteRule id = .ok (r, d') ↔
    ∃ book, d.book.deleteRule (d.distribution.usersOf id) id = .ok (r, book) ∧
      d' = { d with book, verdicts := d.verdicts.forget ((∅ : IdSet).insert id) } := by
  simp only [deleteRule, bind_eq_ok_iff]
  constructor
  · rintro ⟨⟨removed, book⟩, hbook, h⟩
    obtain ⟨rfl, rfl⟩ := Prod.mk.inj (Except.ok.inj h)
    exact ⟨book, hbook, rfl⟩
  · rintro ⟨book, hbook, rfl⟩
    exact ⟨(r, book), hbook, rfl⟩

theorem deleteCondition_eq_ok_iff : d.deleteCondition id = .ok (c, d') ↔
    ∃ book, d.book.deleteCondition id = .ok (c, book) ∧ d' = { d with book } := by
  simp only [deleteCondition, bind_eq_ok_iff]
  constructor
  · rintro ⟨⟨removed, book⟩, hbook, h⟩
    obtain ⟨rfl, rfl⟩ := Prod.mk.inj (Except.ok.inj h)
    exact ⟨book, hbook, rfl⟩
  · rintro ⟨book, hbook, rfl⟩
    exact ⟨(c, book), hbook, rfl⟩

theorem checkNamed_eq_ok_iff {named : Option String} :
    d.checkNamed named = .ok () ↔ ∀ k ∈ named, ∃ r, d.book.rules.get? k = some r := by
  cases named with
  | none => simp [checkNamed]
  | some k =>
    simp only [checkNamed, Option.mem_def, Option.some.injEq, forall_eq', ← rule_eq_ok_iff]
    cases d.book.rule k with
    | error e => exact iff_of_false (fun h => nomatch h) (fun ⟨_, h⟩ => nomatch h)
    | ok r => exact iff_of_true rfl ⟨r, rfl⟩

theorem saveProduct_eq_ok_iff {p : Product} : d.saveProduct p = .ok d' ↔
    (∀ k ∈ p.ruleId?, ∃ r, d.book.rules.get? k = some r) ∧
      d' = { d with distribution := d.distribution.putProduct p } := by
  simp only [saveProduct, bind_eq_ok_iff, ← checkNamed_eq_ok_iff]
  constructor
  · rintro ⟨⟨⟩, hp, h⟩
    exact ⟨hp, (Except.ok.inj h).symm⟩
  · rintro ⟨hp, rfl⟩
    exact ⟨(), hp, rfl⟩

theorem saveRoute_eq_ok_iff {r : Route} : d.saveRoute r = .ok d' ↔
    (∀ k ∈ r.ruleId, ∃ r, d.book.rules.get? k = some r) ∧
      d' = { d with distribution := d.distribution.putRoute r } := by
  simp only [saveRoute, bind_eq_ok_iff, ← checkNamed_eq_ok_iff]
  constructor
  · rintro ⟨⟨⟩, hr, h⟩
    exact ⟨hr, (Except.ok.inj h).symm⟩
  · rintro ⟨hr, rfl⟩
    exact ⟨(), hr, rfl⟩

theorem saveSubscriber_eq_ok_iff {s : Subscriber} : d.saveSubscriber s = .ok d' ↔
    (∀ k ∈ s.products, ∃ p, d.distribution.products.get? k = some p) ∧
      d' = { d with distribution := d.distribution.putSubscriber s } := by
  have hnone : s.products.find? (fun k => !d.distribution.products.contains k) = none ↔
      ∀ k ∈ s.products, ∃ p, d.distribution.products.get? k = some p := by
    simp only [List.find?_eq_none, Bool.not_eq_true, Table.not_contains_eq_false_iff]
  rw [saveSubscriber, ← hnone]
  cases s.products.find? fun k => !d.distribution.products.contains k with
  | some missing => simp
  | none => simp [eq_comm]

/-! ### Runs -/

/-- **What every request of a run keeps holds after the run.** -/
theorem after_induction {P : Desk → Prop} {requests : List Request}
    (hstep : ∀ q ∈ requests, ∀ d, P d → P (d.perform q).2) {d : Desk} (h : P d) :
    P (d.after requests) := by
  unfold after
  induction requests generalizing d with
  | nil => exact h
  | cons q rest ih =>
    rw [List.foldl_cons]
    refine ih (fun q hq => hstep q (List.mem_cons_of_mem _ hq)) ?_
    exact hstep q List.mem_cons_self d h

/-- A property that no successful change breaks is kept, as a failure changes nothing. -/
theorem settle_induction {P : Desk → Prop} {d : Desk} {x : Except RuleError (Answer × Desk)}
    (hstep : ∀ a d', x = .ok (a, d') → P d') (h : P d) : P (d.settle x).2 := by
  cases x with
  | error e => exact h
  | ok y => exact hstep y.1 y.2 rfl

/-- What has to be seen of a property of everything that is saved, so that no request breaks it. -/
structure Outlasts (P : Rulebook → Distribution → Prop) (d : Desk) (q : Request) : Prop where
  /-- It is there before. -/
  before : P d.book d.distribution
  /-- A condition is saved. -/
  saveCondition : ∀ {c book}, d.book.saveCondition c = .ok book → P book d.distribution
  /-- A rule is saved. -/
  saveRule : ∀ {now extra r saved book}, d.book.saveRuleChecked now extra r = .ok (saved, book) →
    P book d.distribution
  /-- The rule is deleted that the request names. -/
  deleteRule : ∀ {others id r book}, q = .change (.deleteRule id) →
    d.book.deleteRule others id = .ok (r, book) → P book d.distribution
  /-- A condition is deleted. -/
  deleteCondition : ∀ {id c book}, d.book.deleteCondition id = .ok (c, book) →
    P book d.distribution
  /-- A product is saved. -/
  saveProduct : ∀ p, P d.book (d.distribution.putProduct p)
  /-- A subscriber is saved. -/
  saveSubscriber : ∀ s, P d.book (d.distribution.putSubscriber s)
  /-- A route is saved. -/
  saveRoute : ∀ r, P d.book (d.distribution.putRoute r)

/-- **A property that none of the operations on the tables breaks outlasts the request.** -/
theorem Outlasts.perform {P : Rulebook → Distribution → Prop} {q : Request} (h : Outlasts P d q) :
    P (d.perform q).2.book (d.perform q).2.distribution := by
  cases q with
  | change c =>
    refine settle_induction (P := fun e => P e.book e.distribution) (fun a d' hc => ?_) h.before
    cases c with
    | saveCondition c =>
      obtain ⟨e, he, ⟨⟩⟩ := bind_eq_ok_iff.1 hc
      obtain ⟨book, hbook, -, rfl⟩ := saveCondition_eq_ok_iff.1 he
      exact h.saveCondition hbook
    | saveRule now r =>
      obtain ⟨⟨saved, e⟩, he, ⟨⟩⟩ := bind_eq_ok_iff.1 hc
      obtain ⟨book, hbook, rfl⟩ := saveRule_eq_ok_iff.1 he
      exact h.saveRule hbook
    | deleteRule id =>
      obtain ⟨⟨removed, e⟩, he, ⟨⟩⟩ := bind_eq_ok_iff.1 hc
      obtain ⟨book, hbook, rfl⟩ := deleteRule_eq_ok_iff.1 he
      exact h.deleteRule rfl hbook
    | deleteCondition id =>
      obtain ⟨⟨removed, e⟩, he, ⟨⟩⟩ := bind_eq_ok_iff.1 hc
      obtain ⟨book, hbook, rfl⟩ := deleteCondition_eq_ok_iff.1 he
      exact h.deleteCondition hbook
    | saveProduct p =>
      obtain ⟨e, he, ⟨⟩⟩ := bind_eq_ok_iff.1 hc
      obtain ⟨-, rfl⟩ := saveProduct_eq_ok_iff.1 he
      exact h.saveProduct p
    | saveSubscriber s =>
      obtain ⟨e, he, ⟨⟩⟩ := bind_eq_ok_iff.1 hc
      obtain ⟨-, rfl⟩ := saveSubscriber_eq_ok_iff.1 he
      exact h.saveSubscriber s
    | saveRoute r =>
      obtain ⟨e, he, ⟨⟩⟩ := bind_eq_ok_iff.1 hc
      obtain ⟨-, rfl⟩ := saveRoute_eq_ok_iff.1 he
      exact h.saveRoute r
  | changeBook c =>
    refine settle_induction (P := fun e => P e.book e.distribution) (fun a d' hc => ?_) h.before
    cases c with
    | saveCondition c =>
      obtain ⟨book, hbook, ⟨⟩⟩ := bind_eq_ok_iff.1 hc
      exact h.saveCondition hbook
    | saveRule now r =>
      obtain ⟨⟨saved, book⟩, hbook, ⟨⟩⟩ := bind_eq_ok_iff.1 hc
      exact h.saveRule hbook
  | ask question => exact h.before

end Desk

end Newswire
