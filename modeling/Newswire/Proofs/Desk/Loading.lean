import Newswire.Proofs.Desk.Bundle
import Newswire.Proofs.Desk.Integrity

/-!
# Loading a bundle

A bundle is put on a new desk list by list, through the operations that maintain the desk.  What each
of them demands of the desk before it comes to what the bundle demands of itself.

* `Establishes` : when an operation succeeds, and what it makes; operations in a row
  (`Establishes.bind`) and one operation for every member of a list (`Establishes.foldlM`).
* `Desk.Stage` : a desk has what a part of the bundle says.  One more condition, rule, product,
  subscriber or route makes a later stage (`Desk.Stage.saveCondition` and its siblings).
* `Bundle.onDesk_wellFormed` : **exactly the well-formed bundles are put on a desk, which then carries
  what the bundle says, in whatever order the bundle lists it.**
-/

namespace Newswire

open Relation Rulebook

/-! ### Operations that succeed under a condition -/

section Establishes

variable {ε σ τ α : Type} {x : Except ε σ} {P Q : Prop} {I : σ → Prop} {J : τ → Prop}

/-- The operation succeeds exactly if `P`, and what it makes satisfies `I`. -/
structure Establishes (x : Except ε σ) (P : Prop) (I : σ → Prop) : Prop where
  /-- When it succeeds. -/
  succeeds_iff : (∃ s, x = .ok s) ↔ P
  /-- What it makes. -/
  result : ∀ s, x = .ok s → I s

theorem Establishes.congr (h : Establishes x P I) (hP : P ↔ Q) : Establishes x Q I :=
  ⟨h.succeeds_iff.trans hP, h.result⟩

theorem Establishes.imp {J : σ → Prop} (h : Establishes x P I) (hI : ∀ s, I s → J s) :
    Establishes x P J :=
  ⟨h.succeeds_iff, fun s hs => hI s (h.result s hs)⟩

theorem establishes_ok {s : σ} (h : I s) : Establishes (.ok s : Except ε σ) True I :=
  ⟨iff_of_true ⟨s, rfl⟩ trivial, fun _ ht => Except.ok.inj ht ▸ h⟩

theorem Establishes.bind {k : σ → Except ε τ} (h : Establishes x P I)
    (hk : ∀ s, I s → Establishes (k s) Q J) : Establishes (x >>= k) (P ∧ Q) J := by
  constructor
  · simp only [bind_eq_ok_iff]
    constructor
    · rintro ⟨t, s, hs, ht⟩
      exact ⟨h.succeeds_iff.1 ⟨s, hs⟩, (hk s (h.result s hs)).succeeds_iff.1 ⟨t, ht⟩⟩
    · rintro ⟨hP, hQ⟩
      obtain ⟨s, hs⟩ := h.succeeds_iff.2 hP
      obtain ⟨t, ht⟩ := (hk s (h.result s hs)).succeeds_iff.2 hQ
      exact ⟨t, s, hs, ht⟩
  · intro t ht
    obtain ⟨s, hs, ht⟩ := bind_eq_ok_iff.1 ht
    exact (hk s (h.result s hs)).result t ht

/-- One operation for every member of a list, when `I` says what has been made after a beginning of
the list. -/
theorem Establishes.foldlM {f : σ → α → Except ε σ} {P : α → Prop} {I : List α → σ → Prop}
    {xs : List α} (hstep : ∀ before a after, xs = before ++ a :: after → ∀ s, I before s →
      Establishes (f s a) (P a) (I (before ++ [a]))) {s : σ} (hs : I [] s) :
    Establishes (xs.foldlM f s) (∀ a ∈ xs, P a) (I xs) := by
  suffices h : ∀ after before s, xs = before ++ after → I before s →
      Establishes (after.foldlM f s) (∀ a ∈ after, P a) (I xs) from h xs [] s rfl hs
  intro after
  induction after with
  | nil =>
    intro before s hxs hs
    rw [List.append_nil] at hxs
    exact (establishes_ok (hxs ▸ hs)).congr (by simp)
  | cons a after ih =>
    intro before s hxs hs
    rw [List.foldlM_cons]
    have hrest := (hstep before a after hxs s hs).bind fun t ht =>
      ih (before ++ [a]) t (by rw [hxs, List.append_cons]) ht
    exact hrest.congr List.forall_mem_cons.symm

end Establishes

theorem not_mem_before_of_nodup {α β : Type} {f : α → β} {before after : List α} {a : α}
    (h : ((before ++ a :: after).map f).Nodup) : f a ∉ before.map f := by
  rw [List.map_append, List.map_cons] at h
  exact fun hmem => (List.nodup_append.1 h).2.2 _ hmem _ List.mem_cons_self rfl

namespace Verdicts

variable {v : Verdicts} {rules : IdSet}

theorem forget_of_not_mem (h : ∀ k, k ∉ rules) : v.forget rules = v := by
  rw [forget, if_pos (IdSet.isEmpty_iff.2 h)]

theorem forget_insert (hentries : v.entries = []) (id : String) :
    v.forget (rules.insert id) = { v with generation := v.generation + 1 } := by
  have hempty : ¬(rules.insert id).isEmpty = true := fun h =>
    IdSet.isEmpty_iff.1 h id (IdSet.mem_insert.2 (Or.inl rfl))
  rw [forget, if_neg hempty, hentries]
  simp

end Verdicts

namespace Desk

variable {d : Desk} {b : Bundle} {settings : Settings} {now : Timestamp} {c : Condition} {r : Rule}

/-! ### Stages -/

/-- The desk has exactly what the bundle says, as far as it is loaded. -/
structure Stage (d : Desk) (b : Bundle) (settings : Settings) (now : Timestamp) : Prop where
  /-- The vocabularies are all put in. -/
  schema : d.schema = .ofVocabularies settings.fields b.vocabularies
  /-- The conditions. -/
  conditions : d.book.conditions.Holds Condition.id b.conditions
  /-- The rules, as first versions. -/
  rules : d.book.rules.Holds Rule.id (b.rules.map (nextVersion now none))
  /-- The rulebook is sound and its index has no idle entries. -/
  indexed : d.book.Indexed
  /-- All conditions can be written as queries. -/
  expressible : d.Expressible
  /-- The products. -/
  products : d.distribution.products.Holds Product.id b.products
  /-- The subscribers. -/
  subscribers : d.distribution.subscribers.Holds Subscriber.id b.subscribers
  /-- The routes. -/
  routes : d.distribution.routes.Holds Route.id b.routes
  /-- Nothing is remembered. -/
  verdicts : d.verdicts = { Verdicts.new settings.cache with generation := b.rules.length }

theorem stage_desk (settings : Settings) (now : Timestamp) (vs : List Vocabulary)
    (items : List Json) :
    (settings.desk vs).Stage ⟨vs, [], [], [], [], [], items⟩ settings now where
  schema := rfl
  conditions := Table.holds_empty _
  rules := Table.holds_empty _
  indexed := .empty
  expressible := fun _ _ hc => nomatch hc
  products := Table.holds_empty _
  subscribers := Table.holds_empty _
  routes := Table.holds_empty _
  verdicts := rfl

theorem checkExpressible_congr {d' : Desk} (h : d'.schema = d.schema) (c : Condition) :
    d'.checkExpressible c = d.checkExpressible c := by
  unfold checkExpressible
  rw [h]

/-- **One more condition.** -/
theorem Stage.saveCondition (h : d.Stage b settings now) (hnew : c.id ∉ b.conditions.map Condition.id) :
    Establishes (d.saveCondition c) (b.Accepts settings c)
      (Stage · { b with conditions := b.conditions ++ [c] } settings now) := by
  have hexpressible : d.checkExpressible c = (settings.desk b.vocabularies).checkExpressible c :=
    checkExpressible_congr h.schema c
  constructor
  · constructor
    · rintro ⟨d', hd'⟩
      obtain ⟨book, hbook, hc, -⟩ := saveCondition_eq_ok_iff.1 hd'
      exact ⟨(Rulebook.saveCondition_eq_ok_iff.1 hbook).1, hexpressible.symm.trans hc⟩
    · rintro ⟨hcheck, hc⟩
      exact ⟨_, saveCondition_eq_ok_iff.2 ⟨_, Rulebook.saveCondition_eq_ok_iff.2 ⟨hcheck, rfl⟩,
        hexpressible.trans hc, rfl⟩⟩
  · intro d' hd'
    obtain ⟨book, hbook, hc, rfl⟩ := saveCondition_eq_ok_iff.1 hd'
    have hindexed := h.indexed.edit (e := .saveCondition c) hbook
    obtain ⟨-, rfl⟩ := Rulebook.saveCondition_eq_ok_iff.1 hbook
    -- no rule names a condition that was not saved
    have hunused : ∀ u, u ∉ d.book.dependents.usersOfCondition c.id true := by
      intro u hu
      obtain ⟨a, ha, -⟩ := Dependents.mem_usersOfCondition_iff.1 hu
      obtain ⟨r, hr, hk⟩ := (h.indexed.listsConditions c.id a).1 ha
      obtain ⟨k, hk, hid⟩ := h.conditions.exists_iff.1 ((h.indexed.inOrder hr).conditions _ hk)
      exact hnew (hid ▸ List.mem_map_of_mem hk)
    refine ⟨h.schema, h.conditions.insert hnew, h.rules, hindexed, fun id k hk => ?_, h.products,
      h.subscribers, h.routes, ?_⟩
    · rcases Table.get?_insert_eq_some_iff.1 hk with ⟨-, rfl⟩ | ⟨-, hk⟩
      · exact hc
      · exact h.expressible id k hk
    · exact (Verdicts.forget_of_not_mem hunused).trans h.verdicts

theorem map_id_nextVersion (rules : List Rule) :
    (rules.map (nextVersion now none)).map Rule.id = rules.map Rule.id :=
  List.map_map.trans (List.map_congr_left fun _ _ => id_nextVersion none)

theorem Stage.exists_rule_iff (h : d.Stage b settings now) {k : String} :
    (∃ p, d.book.rules.get? k = some p) ↔ ∃ p ∈ b.rules, p.id = k := by
  rw [h.rules.exists_iff]
  simp only [List.mem_map, exists_exists_and_eq_and, id_nextVersion]

/-- A rule with parents in the stage is in order exactly if it fits. -/
theorem Stage.inOrder_iff (h : d.Stage b settings now)
    (hparents : ∀ k ∈ r.parentIds, ∃ p ∈ b.rules, p.id = k) :
    d.book.InOrder r ↔ r.Fits b.conditions := by
  have hconditions : (∀ k ∈ r.conditionIds, ∃ c, d.book.conditions.get? k = some c) ↔
      ∀ k ∈ r.conditionIds, ∃ c ∈ b.conditions, c.id = k := by
    simp only [h.conditions.exists_iff]
  constructor
  · intro horder
    exact ⟨horder.id_ne, horder.clauses_ne, horder.clause_ne, hconditions.1 horder.conditions⟩
  · intro hfits
    exact ⟨hfits.id_ne, hfits.clauses_ne, hfits.clause_ne, hconditions.2 hfits.conditions,
      fun k hk => h.exists_rule_iff.2 (hparents k hk)⟩

theorem Expressible.checkCompiles_eq_ok (h : d.Expressible) (hb : d.book.WellFormed)
    (hr : d.book.InOrder r) (hnew : d.book.rules.get? r.id = none) :
    d.checkCompiles r = .ok () := by
  obtain ⟨⟨store, hstore⟩, ⟨search, hsearch⟩⟩ :=
    h.exists_queries fun _ hfits => hb.walkable_new hfits hr hnew
  unfold checkCompiles
  rw [hstore, hsearch]
  rfl

/-- **One more rule**, behind its parents. -/
theorem Stage.saveRule (h : d.Stage b settings now) (hnew : r.id ∉ b.rules.map Rule.id)
    (hparents : ∀ k ∈ r.parentIds, ∃ p ∈ b.rules, p.id = k) :
    Establishes (Prod.snd <$> d.saveRule now r) (r.Fits b.conditions)
      (Stage · { b with rules := b.rules ++ [r] } settings now) := by
  have hnone : d.book.rules.get? r.id = none := by
    refine Option.eq_none_iff_forall_ne_some.2 fun p hp => ?_
    obtain ⟨q, hq, hid⟩ := h.exists_rule_iff.1 ⟨p, hp⟩
    exact hnew (hid ▸ List.mem_map_of_mem hq)
  constructor
  · rw [← h.inOrder_iff hparents]
    constructor
    · rintro ⟨d', hd'⟩
      obtain ⟨⟨saved, d''⟩, hsave, -⟩ := map_eq_ok_iff.1 hd'
      obtain ⟨book, hbook, -⟩ := saveRule_eq_ok_iff.1 hsave
      exact (saveRuleChecked_eq_ok_iff.1 hbook).1.toInOrder
    · intro horder
      have hcompiles := h.expressible.checkCompiles_eq_ok h.indexed.toWellFormed horder hnone
      have hadmits := h.indexed.toSound.admits_new horder hnone
      exact ⟨_, map_eq_ok_iff.2 ⟨(_, _), saveRule_eq_ok_iff.2
        ⟨_, saveRuleChecked_eq_ok_iff.2 ⟨hadmits, hcompiles, rfl, rfl⟩, rfl⟩, rfl⟩⟩
  · intro d' hd'
    obtain ⟨⟨saved, d'⟩, hsave, rfl⟩ := map_eq_ok_iff.1 hd'
    obtain ⟨book, hbook, rfl⟩ := saveRule_eq_ok_iff.1 hsave
    have hindexed : book.Indexed :=
      h.indexed.edit (e := .saveRule now d.checkCompiles r) (bind_eq_ok_iff.2 ⟨_, hbook, rfl⟩)
    obtain ⟨-, -, hsaved, rfl⟩ := saveRuleChecked_eq_ok_iff.1 hbook
    rw [hnone] at hsaved hindexed ⊢
    have hid : saved.id = r.id := hsaved ▸ id_nextVersion none
    refine ⟨h.schema, h.conditions, ?_, hindexed, h.expressible, h.products, h.subscribers,
      h.routes, ?_⟩
    · rw [List.map_append, List.map_singleton, ← hsaved]
      exact h.rules.insert (by rwa [map_id_nextVersion, hid])
    · have hentries : d.verdicts.entries = [] := by rw [h.verdicts]; rfl
      show d.verdicts.forget _ = _
      rw [Verdicts.forget_insert hentries, h.verdicts, List.length_append]
      rfl

/-- **One more product.** -/
theorem Stage.saveProduct {p : Product} (h : d.Stage b settings now)
    (hnew : p.id ∉ b.products.map Product.id) :
    Establishes (d.saveProduct p) (∀ k ∈ p.ruleId?, ∃ r ∈ b.rules, r.id = k)
      (Stage · { b with products := b.products ++ [p] } settings now) := by
  simp only [← h.exists_rule_iff]
  constructor
  · simp only [saveProduct_eq_ok_iff, exists_and_left, exists_eq, and_true]
  · intro d' hd'
    obtain ⟨-, rfl⟩ := saveProduct_eq_ok_iff.1 hd'
    exact { h with products := h.products.insert hnew }

/-- **One more subscriber.** -/
theorem Stage.saveSubscriber {s : Subscriber} (h : d.Stage b settings now)
    (hnew : s.id ∉ b.subscribers.map Subscriber.id) :
    Establishes (d.saveSubscriber s) (∀ k ∈ s.products, ∃ p ∈ b.products, p.id = k)
      (Stage · { b with subscribers := b.subscribers ++ [s] } settings now) := by
  simp only [← h.products.exists_iff]
  constructor
  · simp only [saveSubscriber_eq_ok_iff, exists_and_left, exists_eq, and_true]
  · intro d' hd'
    obtain ⟨-, rfl⟩ := saveSubscriber_eq_ok_iff.1 hd'
    exact { h with subscribers := h.subscribers.insert hnew }

/-- **One more route.** -/
theorem Stage.saveRoute {t : Route} (h : d.Stage b settings now)
    (hnew : t.id ∉ b.routes.map Route.id) :
    Establishes (d.saveRoute t) (∀ k ∈ t.ruleId, ∃ r ∈ b.rules, r.id = k)
      (Stage · { b with routes := b.routes ++ [t] } settings now) := by
  simp only [← h.exists_rule_iff]
  constructor
  · simp only [saveRoute_eq_ok_iff, exists_and_left, exists_eq, and_true]
  · intro d' hd'
    obtain ⟨-, rfl⟩ := saveRoute_eq_ok_iff.1 hd'
    exact { h with routes := h.routes.insert hnew }

/-! ### The whole bundle -/

/-- In which order the rules came does not matter to a stage. -/
theorem Stage.of_perm {rules : List Rule} (h : d.Stage { b with rules } settings now)
    (hperm : rules.Perm b.rules) : d.Stage b settings now :=
  { h with
    rules := h.rules.congr fun _ => (hperm.map _).mem_iff
    verdicts := by rw [h.verdicts, hperm.length_eq] }

theorem Stage.get?_rule (h : d.Stage b settings now) (hr : r ∈ b.rules) :
    d.book.rules.get? r.id = some (nextVersion now none r) :=
  (h.rules _ _).2 ⟨List.mem_map_of_mem hr, id_nextVersion none⟩

/-- Every rule of a stage stands behind its parents. -/
theorem Stage.parents (h : d.Stage b settings now) (hr : r ∈ b.rules) :
    ∀ k ∈ r.parentIds, ∃ p ∈ b.rules, p.id = k :=
  fun k hk => h.exists_rule_iff.1 ((h.indexed.inOrder (h.get?_rule hr)).parents k hk)

theorem Stage.acyclic (h : d.Stage b settings now) (k : String) :
    ¬TransGen (Rule.Names b.rules) k k := by
  intro hk
  refine h.indexed.acyclic k (TransGen.mono ?_ k k hk)
  rintro u v ⟨r, hr, rfl, hv⟩
  exact ⟨_, h.get?_rule hr, hv⟩

/-- **A desk on which the whole bundle is saved carries it.** -/
theorem Stage.carries (h : d.Stage b settings now) (hb : b.Distinct) :
    d.Carries b settings now := by
  obtain ⟨hvocabularies, hlayout⟩ := Schema.holds_ofVocabularies settings.fields hb.vocabularies
  rw [← h.schema] at hvocabularies hlayout
  refine ⟨hlayout, hvocabularies, h.conditions, h.rules, ?_, h.products, h.subscribers, h.routes,
    h.verdicts⟩
  -- a version of a rule names what the rule names
  have hsame : Dependents.ofRules (b.rules.map (nextVersion now none)) =
      Dependents.ofRules b.rules := List.foldl_map
  rw [← hsame]
  refine (h.indexed.exactlyIndexed.rebuilt _ fun r => ?_).symm
  simp only [h.rules _ _, exists_and_left, exists_eq', and_true]

theorem establishes_conditions (hb : b.Distinct) (settings : Settings) (now : Timestamp) :
    Establishes (b.conditions.foldlM Desk.saveCondition (settings.desk b.vocabularies))
      (∀ c ∈ b.conditions, b.Accepts settings c)
      (Stage · ⟨b.vocabularies, b.conditions, [], [], [], [], b.items⟩ settings now) :=
  Establishes.foldlM
    (I := fun before => (Stage · ⟨b.vocabularies, before, [], [], [], [], b.items⟩ settings now))
    (fun _ _ _ hsplit _ hd => hd.saveCondition (not_mem_before_of_nodup (hsplit ▸ hb.conditions)))
    (stage_desk settings now b.vocabularies b.items)

/-- Rules in turn can be saved one after the other. -/
theorem establishes_rules {rules : List Rule} (hb : b.Distinct) (hperm : rules.Perm b.rules)
    (hturn : Rule.InTurn (fun _ => False) rules)
    (h : d.Stage ⟨b.vocabularies, b.conditions, [], [], [], [], b.items⟩ settings now) :
    Establishes (rules.foldlM (fun d r => Prod.snd <$> d.saveRule now r) d)
      (∀ r ∈ b.rules, r.Fits b.conditions)
      (Stage · ⟨b.vocabularies, b.conditions, b.rules, [], [], [], b.items⟩ settings now) := by
  have hnodup : (rules.map Rule.id).Nodup := (hperm.map _).nodup_iff.2 hb.rules
  have hrules : Establishes (rules.foldlM (fun d r => Prod.snd <$> d.saveRule now r) d)
      (∀ r ∈ rules, r.Fits b.conditions)
      (Stage · ⟨b.vocabularies, b.conditions, rules, [], [], [], b.items⟩ settings now) := by
    refine Establishes.foldlM (I := fun before =>
      (Stage · ⟨b.vocabularies, b.conditions, before, [], [], [], b.items⟩ settings now))
      (fun before r after hsplit d hd => ?_) h
    subst hsplit
    exact hd.saveRule (not_mem_before_of_nodup hnodup) fun k hk =>
      (hturn.parents hk).2.resolve_left id
  refine (hrules.congr ?_).imp fun d hd => hd.of_perm hperm
  exact forall_congr' fun r => imp_congr_left hperm.mem_iff

theorem establishes_products (hb : b.Distinct)
    (h : d.Stage ⟨b.vocabularies, b.conditions, b.rules, [], [], [], b.items⟩ settings now) :
    Establishes (b.products.foldlM Desk.saveProduct d)
      (∀ p ∈ b.products, ∀ k ∈ p.ruleId?, ∃ r ∈ b.rules, r.id = k)
      (Stage · ⟨b.vocabularies, b.conditions, b.rules, b.products, [], [], b.items⟩
        settings now) :=
  Establishes.foldlM
    (I := fun before =>
      (Stage · ⟨b.vocabularies, b.conditions, b.rules, before, [], [], b.items⟩ settings now))
    (fun _ _ _ hsplit _ hd => hd.saveProduct (not_mem_before_of_nodup (hsplit ▸ hb.products))) h

theorem establishes_subscribers (hb : b.Distinct)
    (h : d.Stage ⟨b.vocabularies, b.conditions, b.rules, b.products, [], [], b.items⟩
      settings now) :
    Establishes (b.subscribers.foldlM Desk.saveSubscriber d)
      (∀ s ∈ b.subscribers, ∀ k ∈ s.products, ∃ p ∈ b.products, p.id = k)
      (Stage · ⟨b.vocabularies, b.conditions, b.rules, b.products, b.subscribers, [], b.items⟩
        settings now) :=
  Establishes.foldlM
    (I := fun before => (Stage ·
      ⟨b.vocabularies, b.conditions, b.rules, b.products, before, [], b.items⟩ settings now))
    (fun _ _ _ hsplit _ hd =>
      hd.saveSubscriber (not_mem_before_of_nodup (hsplit ▸ hb.subscribers))) h

theorem establishes_routes (hb : b.Distinct)
    (h : d.Stage ⟨b.vocabularies, b.conditions, b.rules, b.products, b.subscribers, [], b.items⟩
      settings now) :
    Establishes (b.routes.foldlM Desk.saveRoute d)
      (∀ t ∈ b.routes, ∀ k ∈ t.ruleId, ∃ r ∈ b.rules, r.id = k) (Stage · b settings now) :=
  Establishes.foldlM
    (I := fun before => (Stage · { b with routes := before } settings now))
    (fun _ _ _ hsplit _ hd => hd.saveRoute (not_mem_before_of_nodup (hsplit ▸ hb.routes))) h

/-- **Putting a bundle on a desk succeeds exactly if the bundle is well-formed**, and then everything
in it is saved. -/
theorem establishes_onDesk (hb : b.Distinct) (settings : Settings) (now : Timestamp) :
    Establishes (b.onDesk settings now) (b.WellFormed settings) (Stage · b settings now) := by
  have harrange : Establishes (Rule.arrange b.rules) (∃ out, Rule.arrange b.rules = .ok out)
      fun out => out.Perm b.rules ∧ Rule.InTurn (fun _ => False) out :=
    ⟨Iff.rfl, fun _ hout => Rule.arrange_eq_ok hout⟩
  have hsteps : Establishes (b.onDesk settings now) _ (Stage · b settings now) :=
    (establishes_conditions hb settings now).bind fun d hd =>
      harrange.bind fun rules hrules =>
        (establishes_rules hb hrules.1 hrules.2 hd).bind fun d hd =>
          (establishes_products hb hd).bind fun d hd =>
            (establishes_subscribers hb hd).bind fun d hd => establishes_routes hb hd
  refine hsteps.congr ⟨fun h => ?_, fun h => ?_⟩
  · -- the graph of the rules is read off the desk that has been made
    obtain ⟨d, hd⟩ := hsteps.succeeds_iff.2 h
    have hstage := hsteps.result d hd
    obtain ⟨hconditions, -, hrules, hproducts, hsubscribers, hroutes⟩ := h
    exact ⟨hconditions, hrules, fun r hr => hstage.parents hr, hstage.acyclic, hproducts,
      hsubscribers, hroutes⟩
  · exact ⟨h.conditions, Rule.exists_arrange h.parents h.acyclic, h.rules, h.products,
      h.subscribers, h.routes⟩

end Desk

/-- **Exactly the well-formed bundles are put on a desk.**  The desk then has what the bundle says and
nothing else, and neither the success nor the desk depends on the order in which the bundle lists
it. -/
theorem Bundle.onDesk_wellFormed {b : Bundle} (hb : b.Distinct) (settings : Settings)
    (now : Timestamp) :
    ((∃ d, b.onDesk settings now = .ok d) ↔ b.WellFormed settings) ∧
      (∀ d, b.onDesk settings now = .ok d → d.Carries b settings now) ∧
      ∀ b', b.Rearranges b' →
        (b'.onDesk settings now).toOption = (b.onDesk settings now).toOption := by
  have hcarries : ∀ {b : Bundle}, b.Distinct → ∀ d, b.onDesk settings now = .ok d →
      d.Carries b settings now := fun hb d hd =>
    ((Desk.establishes_onDesk hb settings now).result d hd).carries hb
  refine ⟨(Desk.establishes_onDesk hb settings now).succeeds_iff, hcarries hb,
    fun b' horder => ?_⟩
  have hb' := hb.rearranged horder
  have hiff := (Desk.establishes_onDesk hb settings now).succeeds_iff
  have hiff' := (Desk.establishes_onDesk hb' settings now).succeeds_iff
  cases hd : b.onDesk settings now with
  | ok d =>
    obtain ⟨d', hd'⟩ := hiff'.2 ((hiff.1 ⟨d, hd⟩).rearranged hb horder)
    rw [hd']
    exact congrArg some ((hcarries hb d hd).eq_of_rearranges (hcarries hb' d' hd') horder)
  | error e =>
    cases hd' : b'.onDesk settings now with
    | error e' => rfl
    | ok d' =>
      obtain ⟨d, hok⟩ := hiff.2 ((hiff'.1 ⟨d', hd'⟩).rearranged hb' horder.symm)
      cases hd.symm.trans hok

/-- A bundle in which a rule stands before its parent. -/
def Bundle.childFirst : Bundle where
  vocabularies := [.controlled "topics" [⟨"Weather", "weather", true⟩]]
  conditions := [.ofParts "flood" "headline" .like "flood",
    .ofParts "weather" "topics" .eq "weather"]
  rules := [.new default "local" "Local" [⟨.ofList ["flood"], .ofList ["wire"]⟩],
    .new default "wire" "Wire" [⟨.ofList ["weather"], ∅⟩]]
  products := [⟨"alerts", "Alerts", some ⟨"local", .permitting⟩⟩]
  subscribers := [⟨"north", "North", ["alerts"], true⟩]
  routes := [⟨"front", "Front", some "wire"⟩]
  items := []

theorem Bundle.distinct_childFirst : childFirst.Distinct := by
  constructor <;> decide

theorem Bundle.wellFormed_childFirst : childFirst.WellFormed {} where
  conditions c hc := by
    have hcases := List.mem_pair.1 hc
    rcases hcases with rfl | rfl
    · exact ⟨eq_ok_of_toOption (by decide +kernel), eq_ok_of_toOption (by decide +kernel)⟩
    · exact ⟨eq_ok_of_toOption (by decide +kernel), eq_ok_of_toOption (by decide +kernel)⟩
  rules r hr := by
    have hnames : ∀ r ∈ childFirst.rules, ∀ k ∈ r.conditionIds.toList,
        ∃ c ∈ childFirst.conditions, c.id = k := by decide +kernel
    have hcomplete : ∀ r ∈ childFirst.rules, r.id ≠ "" ∧ r.clauses.length ≠ 0 ∧
        ∀ c ∈ r.clauses, c.isEmpty = false := by decide +kernel
    obtain ⟨hid, hclauses, hclause⟩ := hcomplete r hr
    exact ⟨hid, fun hnil => hclauses (List.length_eq_zero_iff.2 hnil), hclause,
      fun k hk => hnames r hr k (IdSet.mem_toList.2 hk)⟩
  parents r hr k hk := by
    have hnames : ∀ r ∈ childFirst.rules, ∀ k ∈ r.parentIds.toList,
        ∃ p ∈ childFirst.rules, p.id = k := by decide +kernel
    exact hnames r hr k (IdSet.mem_toList.2 hk)
  acyclic k hk := by
    have hnames : ∀ r ∈ childFirst.rules, ∀ k ∈ r.parentIds.toList,
        r.id = "local" ∧ k = "wire" := by decide +kernel
    -- a circle would leave its first rule by one name and come back to it by another
    obtain ⟨_, ⟨r, hr, rfl, hout⟩, -⟩ := TransGen.head'_iff.1 hk
    obtain ⟨_, -, ⟨p, hp, -, hin⟩⟩ := TransGen.tail'_iff.1 hk
    have hlocal := (hnames r hr _ (IdSet.mem_toList.2 hout)).1
    have hwire := (hnames p hp _ (IdSet.mem_toList.2 hin)).2
    exact absurd (hlocal.symm.trans hwire) (by decide)
  products := by decide +kernel
  subscribers := by decide +kernel
  routes := by decide +kernel

theorem Bundle.onDesk_wellFormed_childFirst : childFirst.Distinct ∧ childFirst.WellFormed {} ∧
    ∃ d, childFirst.onDesk {} default = .ok d ∧ d.Carries childFirst {} default := by
  obtain ⟨hsucceeds, hcarries, -⟩ := Bundle.onDesk_wellFormed distinct_childFirst {} default
  obtain ⟨d, hd⟩ := hsucceeds.2 wellFormed_childFirst
  exact ⟨distinct_childFirst, wellFormed_childFirst, d, hd, hcarries d hd⟩

end Newswire
