import Mathlib.Data.Set.Insert
import Newswire.Proofs.Desk.Judging

/-!
# Remembered verdicts do not show

A desk remembers verdicts and forgets those that a change concerns.  Nobody can tell from its
answers.

* `Desk.Truthful` : what is remembered is about the saved version of a rule, and is what evaluation
  finds now.  Every request keeps this (`Desk.Reliable.perform`): a change forgets all verdicts that
  it does not spare (`Desk.Effect.truthful`).
* `Desk.anew` : the answer to a question when everything is evaluated anew.  It is the answer as long
  as what may be remembered tells the truth (`Desk.meets_answer`).
* `Desk.answers_memory` : **every run of requests to a new desk is answered as without memory**, and
  whatever is remembered after it is true.
-/

namespace Newswire

open Rulebook

namespace Desk

/-! ### True verdicts -/

/-- Items with the same identity are the same. -/
def Identified (items : Set Json) : Prop :=
  ∀ x ∈ items, ∀ y ∈ items, ∀ id, Item.id? x = some id → Item.id? y = some id → x = y

/-- A verdict is about the saved version of a rule, and is what evaluation finds on the items. -/
def Backed (d : Desk) (items : Set Json) (key : VerdictKey) (verdict : Bool) : Prop :=
  ∃ r, d.book.rules.get? key.rule = some r ∧ r.revision = key.revision ∧
    ∀ item ∈ items, Item.id? item = some key.item →
      d.book.holds d.schema item (some r) = .ok verdict

/-- What is remembered is about the saved version of a rule, and is what evaluation finds on the
items. -/
def Truthful (d : Desk) (items : Set Json) (v : Verdicts) : Prop :=
  ∀ key verdict, (key, verdict) ∈ v.entries → ∃ r, d.book.rules.get? key.rule = some r ∧
    r.revision = key.revision ∧ ∀ item ∈ items, Item.id? item = some key.item →
      d.book.holds d.schema item (some r) = .ok verdict

/-- The decision has the outcome, whatever true verdicts are remembered, and it adds only true
ones. -/
def Yields {α : Type} (d : Desk) (items : Set Json) (j : Judging α) (x : Except RuleError α) :
    Prop :=
  ∀ v, d.Truthful items v → (j.run v).1 = x ∧ d.Truthful items (j.run v).2

variable {d d' : Desk} {items : Set Json} {item : Json} {id : String}

theorem truthful_new (d : Desk) (items : Set Json) (cache : CacheSettings) :
    d.Truthful items (.new cache) :=
  Verdicts.all_new cache

/-- A verdict under a key of a saved rule and one of the items is true exactly if it is what
evaluation finds. -/
theorem tells_backed (hitems : Identified items) (hitem : item ∈ items) :
    d.Tells (d.Backed items) item := by
  refine ⟨fun {r cache key verdict} hr hkey => ?_⟩
  obtain ⟨-, hrule, hrevision, hid⟩ := verdictKey?_eq_some hkey
  constructor
  · rintro ⟨saved, hsaved, -, hholds⟩
    rw [hrule, hr] at hsaved
    obtain rfl := Option.some.inj hsaved
    exact hholds item hitem hid
  · intro hholds
    refine ⟨r, hrule ▸ hr, hrevision.symm, fun x hx hxid => ?_⟩
    rw [hitems x hx item hitem _ hxid hid]
    exact hholds

/-- A rule whose verdicts may be remembered: it is saved, or it has no identifier. -/
def Known (d : Desk) (r : Rule) : Prop := r.id = "" ∨ d.book.rules.get? r.id = some r

/-- **A decision on a known rule has the outcome of evaluation.** -/
theorem Tells.meets_known {E : VerdictKey → Bool → Prop} {r : Rule} (h : d.Tells E item)
    (hr : d.Known r) (memory : Bool) :
    Meets E (d.selects (some r) item memory) (· = d.book.holds d.schema item (some r)) := by
  rcases hr with hid | hr
  · -- without an identifier there is no key
    have hno : ∀ {cache key}, verdictKey? cache r item ≠ some key :=
      fun hkey => (verdictKey?_eq_some hkey).1 hid
    exact Desk.meets_selects (P := (· = d.book.holds d.schema item (some r))) rfl
      (fun hkey => (hno hkey).elim) (fun hkey => (hno hkey).elim) memory
  · exact h.meets_selects hr memory

theorem yields_savedSelects (hb : d.book.WellFormed) (hitems : Identified items)
    (hitem : item ∈ items) (memory : Bool) :
    d.Yields items (d.savedSelects id item memory) (d.savedHolds id item) :=
  (tells_backed hitems hitem).meets_savedSelects hb memory

/-! ### Questions -/

/-- The question is about some of the items. -/
def Question.About (items : Set Json) : Question → Prop
  | .selects _ item _ | .savedSelects _ item _ | .receives _ item | .applies _ item => item ∈ items
  | .filterItems _ xs => ∀ x ∈ xs, x ∈ items

/-- The rule of the question is known to the desk. -/
def Knows (d : Desk) : Question → Prop
  | .selects r _ _ => ∀ rule ∈ r, d.Known rule
  | .savedSelects .. | .filterItems .. | .receives .. | .applies .. => True

/-- The question is about some of the items, and about a saved rule or one without identifier. -/
def Question.Within (items : Set Json) : Question → Prop
  | .selects r item _ => (∀ rule ∈ r, rule.id = "") ∧ item ∈ items
  | .savedSelects _ item _ | .receives _ item | .applies _ item => item ∈ items
  | .filterItems _ xs => ∀ x ∈ xs, x ∈ items

/-- The request is made at the desk, and a question is about some of the items. -/
def Request.Within (items : Set Json) : Request → Prop
  | .change _ => True
  | .changeBook _ => False
  | .ask q => q.Within items

theorem Question.Within.about {q : Question} (h : q.Within items) : q.About items := by
  cases q with
  | selects r item memory => exact h.2
  | savedSelects | filterItems | receives | applies => exact h

theorem Question.Within.knows {q : Question} (h : q.Within items) (d : Desk) : d.Knows q := by
  cases q with
  | selects r item memory => exact fun rule hrule => Or.inl (h.1 rule hrule)
  | savedSelects | filterItems | receives | applies => trivial

/-- The answer to a question when every rule is evaluated anew. -/
def anew (d : Desk) : Question → Except RuleError Answer
  | .selects r item _ => .verdict <$> d.book.holds d.schema item r
  | .savedSelects id item _ => .verdict <$> d.savedHolds id item
  | .filterItems id items => do
    let r ← d.book.rule id
    .items <$> items.filterM fun item => d.book.holds d.schema item (some r)
  | .receives id item => .verdict <$> d.isServed id item
  | .applies id item => .verdict <$> d.isRouted id item

/-- Many items are filtered with a memory of their own, which begins empty. -/
theorem filterItems_eq (hb : d.book.WellFormed) (hitems : Identified items) {xs : List Json}
    (hxs : ∀ x ∈ xs, x ∈ items) : d.filterItems id xs = (do
      let r ← d.book.rule id
      xs.filterM fun x => d.book.holds d.schema x (some r)) := by
  unfold filterItems
  cases hr : d.book.rule id with
  | error e => rfl
  | ok r =>
    have hsaved := rule_eq_ok_iff.1 hr
    obtain rfl := hb.id_eq hsaved
    have hmeets := meets_filterM_eq fun x hx =>
      (tells_backed (d := d) hitems (hxs x hx)).meets_selects hsaved true
    exact (hmeets d.scratch (Verdicts.all_new _)).1

/-- **A question is answered as if everything was evaluated anew**, whatever the desk remembers, as
long as it tells the truth about the items. -/
theorem meets_answer {E : VerdictKey → Bool → Prop} (hb : d.book.WellFormed)
    (hitems : Identified items) (hE : ∀ item ∈ items, d.Tells E item) {q : Question}
    (habout : q.About items) (hknown : d.Knows q) (w : Verdicts) :
    Meets E (({ d with verdicts := w } : Desk).answer q) (· = d.anew q) := by
  cases q with
  | selects r item memory =>
    cases r with
    | none => exact Meets.map_eq (x := .ok true) (meets_pure rfl) Answer.verdict
    | some rule => exact ((hE item habout).meets_known (hknown rule rfl) memory).map_eq Answer.verdict
  | savedSelects id item memory =>
    exact ((hE item habout).meets_savedSelects hb memory).map_eq Answer.verdict
  | filterItems id xs =>
    have hfound : ({ d with verdicts := w } : Desk).filterItems id xs = (do
        let r ← d.book.rule id
        xs.filterM fun x => d.book.holds d.schema x (some r)) :=
      filterItems_eq (d := { d with verdicts := w }) hb hitems habout
    show Meets E (do
      let kept ← ({ d with verdicts := w } : Desk).filterItems id xs
      return Answer.items kept) _
    rw [hfound, anew, ← map_bind]
    exact (meets_liftM rfl).map_eq Answer.items
  | receives id item => exact ((hE item habout).meets_receives hb).map_eq Answer.verdict
  | applies id item => exact ((hE item habout).meets_applies hb).map_eq Answer.verdict

/-- A desk whose remembered verdicts tell the truth about the items answers as if everything was
evaluated anew, and goes on to remember such verdicts only. -/
theorem perform_ask_of_tells {E : VerdictKey → Bool → Prop} (hb : d.book.WellFormed)
    (hitems : Identified items) (hE : ∀ item ∈ items, d.Tells E item) (hv : d.verdicts.All E)
    {q : Question} (habout : q.About items) (hknown : d.Knows q) :
    (d.perform (.ask q)).1 = d.anew q ∧ (d.perform (.ask q)).2.verdicts.All E :=
  meets_answer hb hitems hE habout hknown d.verdicts d.verdicts hv

/-! ### Changes -/

theorem Effect.holds_eq {concerned : IdSet} (h : Effect d d' concerned) (hb : d.book.WellFormed)
    {k : String} {r : Rule} (hspared : k ∉ concerned) (hr : d.book.rules.get? k = some r)
    (item : Json) : d'.book.holds d'.schema item (some r) = d.book.holds d.schema item (some r) := by
  rw [h.schema]
  exact hb.holds_eq h.sound.toWellFormed h.spares hspared hr d.schema item

/-- A change forgets every verdict that it may have made untrue. -/
theorem Effect.truthful {concerned : IdSet} (h : Effect d d' concerned) (hb : d.book.WellFormed)
    (hv : d.Truthful items d.verdicts) : d'.Truthful items d'.verdicts := by
  have hkept : (d.verdicts.forget concerned).All (d'.Backed items) := by
    refine Verdicts.All.forget (E := d.Backed items) hv fun hspared hE => ?_
    obtain ⟨r, hr, hrevision, hholds⟩ := hE
    refine ⟨r, (h.spares.rules hspared).trans hr, hrevision, fun item hitem hid => ?_⟩
    -- the verdict was kept, so the change spares its rule
    exact (h.holds_eq hb hspared hr item).trans (hholds item hitem hid)
  rw [h.verdicts]
  exact hkept

/-- The desk without what it remembers. -/
def bare (d : Desk) : Desk := { d with verdicts := .new {} }

/-- What an operation comes to, apart from what is remembered. -/
def outcome (x : Except RuleError (Answer × Desk)) : Except RuleError (Answer × Desk) :=
  (fun y => (y.1, y.2.bare)) <$> x

theorem outcome_change (d : Desk) (w : Verdicts) (c : Change) :
    outcome (({ d with verdicts := w } : Desk).change c) = outcome (d.change c) := by
  -- every check reads the schema, the rulebook and the distribution only
  cases c with
  | saveCondition c =>
    simp only [change, saveCondition]
    have hexpressible : ({ d with verdicts := w } : Desk).checkExpressible c = d.checkExpressible c :=
      rfl
    rw [hexpressible]
    cases d.book.saveCondition c with
    | error e => rfl
    | ok book => cases d.checkExpressible c <;> rfl
  | saveRule now r =>
    simp only [change, saveRule]
    have hcompiles : ({ d with verdicts := w } : Desk).checkCompiles = d.checkCompiles := rfl
    rw [hcompiles]
    cases d.book.saveRuleChecked now d.checkCompiles r <;> rfl
  | deleteRule id =>
    simp only [change, deleteRule]
    have husers : ({ d with verdicts := w } : Desk).otherUsers id = d.otherUsers id := rfl
    rw [husers]
    cases d.book.deleteRule (d.otherUsers id) id <;> rfl
  | deleteCondition id =>
    simp only [change, deleteCondition]
    cases d.book.deleteCondition id <;> rfl
  | saveProduct p =>
    simp only [change, saveProduct]
    have hnamed : ({ d with verdicts := w } : Desk).checkNamed p.ruleId? = d.checkNamed p.ruleId? :=
      rfl
    rw [hnamed]
    cases d.checkNamed p.ruleId? <;> rfl
  | saveSubscriber s =>
    simp only [change, saveSubscriber]
    cases s.products.find? fun id => !d.distribution.products.contains id <;> rfl
  | saveRoute r =>
    simp only [change, saveRoute]
    have hnamed : ({ d with verdicts := w } : Desk).checkNamed r.ruleId = d.checkNamed r.ruleId := rfl
    rw [hnamed]
    cases d.checkNamed r.ruleId <;> rfl

/-! ### Runs -/

/-- A desk with true verdicts on a sound rulebook. -/
structure Reliable (d : Desk) (items : Set Json) : Prop where
  /-- The conditions and rules are in order. -/
  sound : d.book.Sound
  /-- What is remembered is true. -/
  truthful : d.Truthful items d.verdicts

theorem reliable_new (schema : Schema) (cache : CacheSettings) (items : Set Json) :
    (Desk.new schema cache).Reliable items :=
  ⟨.empty, truthful_new _ items cache⟩

theorem Reliable.ask (h : d.Reliable items) (hitems : Identified items) {q : Question}
    (habout : q.About items) (hknown : d.Knows q) :
    (d.perform (.ask q)).1 = d.anew q ∧ (d.perform (.ask q)).2.Reliable items := by
  have htells : ∀ item ∈ items, d.Tells (d.Backed items) item :=
    fun item hitem => tells_backed hitems hitem
  obtain ⟨hanswer, htruthful⟩ :=
    perform_ask_of_tells h.sound.toWellFormed hitems htells h.truthful habout hknown
  exact ⟨hanswer, h.sound, htruthful⟩

/-- Every request keeps what is remembered true. -/
theorem Reliable.perform (h : d.Reliable items) (hitems : Identified items) {q : Request}
    (hq : q.Within items) : (d.perform q).2.Reliable items := by
  cases q with
  | change c =>
    refine @settle_induction (fun d => d.Reliable items) _ _ (fun a d' hc => ?_) h
    obtain ⟨concerned, heffect⟩ := change_effect h.sound hc
    exact ⟨heffect.sound, heffect.truthful h.sound.toWellFormed h.truthful⟩
  | changeBook c => exact hq.elim
  | ask question => exact (h.ask hitems hq.about (hq.knows d)).2

theorem eq_of_bare_eq {e : Desk} (h : e.bare = d.bare) : e = { d with verdicts := e.verdicts } := by
  obtain ⟨schema, book, distribution, w⟩ := e
  cases h
  rfl

theorem settle_eq {e : Desk} (hbare : e.bare = d.bare) {x y : Except RuleError (Answer × Desk)}
    (h : outcome x = outcome y) :
    (e.settle x).1 = (d.settle y).1 ∧ (e.settle x).2.bare = (d.settle y).2.bare := by
  cases x with
  | error e =>
    cases y with
    | error e' =>
      obtain rfl : e = e' := Except.error.inj h
      exact ⟨rfl, hbare⟩
    | ok y => cases h
  | ok x =>
    cases y with
    | error e' => cases h
    | ok y =>
      obtain ⟨a, d₁⟩ := x
      obtain ⟨b, d₂⟩ := y
      obtain ⟨hab, hd⟩ : a = b ∧ d₁.bare = d₂.bare := Prod.mk.inj (Except.ok.inj h)
      exact ⟨congrArg Except.ok hab, hd⟩

/-- A change has the same answer and comes to the same on desks that differ in what they remember. -/
theorem perform_change_eq {e : Desk} (hbare : e.bare = d.bare) (c : Change) :
    (e.perform (.change c)).1 = (d.perform (.change c)).1 ∧
      (e.perform (.change c)).2.bare = (d.perform (.change c)).2.bare := by
  have houtcome := outcome_change d e.verdicts c
  rw [← eq_of_bare_eq hbare] at houtcome
  exact settle_eq hbare houtcome

theorem anew_eq {e : Desk} (hbare : e.bare = d.bare) (q : Question) : e.anew q = d.anew q := by
  rw [eq_of_bare_eq hbare]
  cases q <;> rfl

/-- Desks that differ in what they remember answer a request alike, and differ no more after it. -/
theorem Reliable.perform_eq {e : Desk} (hd : d.Reliable items) (he : e.Reliable items)
    (hbare : e.bare = d.bare) (hitems : Identified items) {q : Request} (hq : q.Within items) :
    (e.perform q).1 = (d.perform q).1 ∧ (e.perform q).2.bare = (d.perform q).2.bare := by
  cases q with
  | change c => exact perform_change_eq hbare c
  | changeBook c => exact hq.elim
  | ask question =>
    have hanswer := (he.ask hitems hq.about (hq.knows e)).1
    exact ⟨(hanswer.trans (anew_eq hbare question)).trans
      (hd.ask hitems hq.about (hq.knows d)).1.symm, hbare⟩

theorem Reliable.answers_eq {e : Desk} (hd : d.Reliable items) (he : e.Reliable items)
    (hbare : e.bare = d.bare) (hitems : Identified items) {requests : List Request}
    (hrequests : ∀ q ∈ requests, q.Within items) : e.answers requests = d.answers requests := by
  induction requests generalizing d e with
  | nil => rfl
  | cons q rest ih =>
    have hq := hrequests q List.mem_cons_self
    have hrest : ∀ q ∈ rest, q.Within items := fun q hq => hrequests q (List.mem_cons_of_mem _ hq)
    obtain ⟨hanswer, hafter⟩ := hd.perform_eq he hbare hitems hq
    have htail := ih (hd.perform hitems hq) (he.perform hitems hq) hafter hrest
    rw [answers, answers, hanswer, htail]

/-- **A desk with a memory of any size answers every run of requests like one without memory**, and
whatever it remembers after the run is about a saved version of a rule and is what evaluation finds
then. -/
theorem answers_memory {items : Set Json} (hitems : Identified items) {requests : List Request}
    (hrequests : ∀ q ∈ requests, q.Within items) (schema : Schema) (m n : Nat) :
    (Desk.new schema ⟨true, m⟩).answers requests = (Desk.new schema ⟨false, n⟩).answers requests ∧
      ((Desk.new schema ⟨true, m⟩).after requests).Truthful items
        ((Desk.new schema ⟨true, m⟩).after requests).verdicts := by
  have hwith := reliable_new schema ⟨true, m⟩ items
  have hwithout := reliable_new schema ⟨false, n⟩ items
  have hafter : ((Desk.new schema ⟨true, m⟩).after requests).Reliable items :=
    @after_induction (fun d => d.Reliable items) _
      (fun q hq d hd => hd.perform hitems (hrequests q hq)) _ hwith
  exact ⟨hwithout.answers_eq hwith rfl hitems hrequests, hafter.truthful⟩

/-- An item with an identity. -/
def stormItem : Json := .obj [("_id", .num (.int 7)), ("headline", .str "A flood, then a storm")]

/-- A verdict is remembered, then the condition is changed, and the rule deleted and saved again. -/
def forgetfulRun : List Request :=
  [.change (.saveCondition (.ofParts "flood" "headline" .like "flood")),
    .change (.saveRule default (.new default "wire" "wire" [⟨.ofList ["flood"], ∅⟩])),
    .ask (.savedSelects "wire" stormItem true),
    .change (.saveCondition (.ofParts "flood" "headline" .startsWith "flood")),
    .ask (.savedSelects "wire" stormItem true),
    .change (.deleteRule "wire"),
    .ask (.filterItems "wire" [stormItem]),
    .change (.saveRule default (.new default "wire" "wire" [⟨.ofList ["flood"], ∅⟩])),
    .ask (.savedSelects "wire" stormItem true)]

theorem answers_memory_forgetfulRun : Identified {stormItem} ∧
    (∀ q ∈ forgetfulRun, q.Within {stormItem}) ∧
    (Desk.new (.ofLayout {}) ⟨true, 1⟩).answers forgetfulRun =
      (Desk.new (.ofLayout {}) ⟨false, 1⟩).answers forgetfulRun := by
  have hitems : Identified {stormItem} := by
    intro x hx y hy _ _ _
    exact (Set.mem_singleton_iff.1 hx).trans (Set.mem_singleton_iff.1 hy).symm
  have hrun : ∀ q ∈ forgetfulRun, q.Within {stormItem} := by
    simp [forgetfulRun, Request.Within, Question.Within]
  exact ⟨hitems, hrun, (answers_memory hitems hrun (.ofLayout {}) 1 1).1⟩

end Desk

end Newswire
