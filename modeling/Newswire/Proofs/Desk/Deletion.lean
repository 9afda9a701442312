import Newswire.Proofs.Desk.Integrity

/-!
# What may be deleted

A rule or a condition goes when nothing uses it, and otherwise the refusal names its users.  They are
put together from the index of the rulebook and from a look at all products and routes.

* `Referent.Before`, `Referent.Listing` : how users are listed.
* `Desk.RuleUser`, `Desk.ConditionUser` : what uses a rule or a condition, said without the index.
* `Desk.listing_ruleUsers`, `Desk.listing_conditionUsers` : the users that are looked up are these.
* `Desk.RuleGone`, `Desk.ConditionGone` : what a desk lacks after a deletion, and nothing else.
* `Desk.guardsDeletion_after` : **after any requests to a new desk, what is saved can be deleted
  exactly if nothing uses it**; a refusal lists all users once and in order.
-/

namespace Newswire

/-! ### Lists of users -/

namespace Referent

/-- The place of the kind of a referent among the kinds. -/
def rank : Referent → Nat
  | rule _ => 0
  | product _ => 1
  | route _ => 2

/-- Referents come in the order of their kinds, and within a kind in that of their identifiers. -/
def Before (x y : Referent) : Prop := x.rank < y.rank ∨ (x.rank = y.rank ∧ x.id < y.id)

/-- The list holds the referents with a property and no others, each once and in order. -/
structure Listing (xs : List Referent) (P : Referent → Prop) : Prop where
  /-- The members have the property, and nothing else has it. -/
  mem_iff : ∀ x, x ∈ xs ↔ P x
  /-- No member is repeated. -/
  nodup : xs.Nodup
  /-- The members are in order. -/
  ordered : xs.Pairwise Before

variable {x y : Referent} {xs ys : List Referent} {P : Referent → Prop}

theorem Before.ne (h : x.Before y) : x ≠ y := by
  rintro rfl
  exact h.elim (Nat.lt_irrefl _) fun h => String.lt_irrefl _ h.2

theorem Listing.of_ordered (h : xs.Pairwise Before) (hmem : ∀ x, x ∈ xs ↔ P x) : Listing xs P :=
  ⟨hmem, h.imp Before.ne, h⟩

theorem Listing.eq_nil_iff (h : Listing xs P) : xs = [] ↔ ∀ x, ¬P x := by
  simp only [List.eq_nil_iff_forall_not_mem, h.mem_iff]

theorem ordered_map {α : Type} {as : List α} {referent : α → Referent}
    (hrank : ∀ a b, (referent a).rank = (referent b).rank)
    (h : as.Pairwise fun a b => (referent a).id < (referent b).id) :
    (as.map referent).Pairwise Before :=
  List.pairwise_map.2 (h.imp fun hab => Or.inr ⟨hrank _ _, hab⟩)

theorem ordered_append (hx : xs.Pairwise Before) (hy : ys.Pairwise Before)
    (h : ∀ x ∈ xs, ∀ y ∈ ys, x.rank < y.rank) : (xs ++ ys).Pairwise Before :=
  List.pairwise_append.2 ⟨hx, hy, fun x hx y hy => Or.inl (h x hx y hy)⟩

end Referent

/-! ### Products and routes in order -/

theorem Table.pairwise_values {α : Type} {t : Table α} {idOf : α → String}
    (h : ∀ {k v}, t.get? k = some v → idOf v = k) :
    t.values.Pairwise fun v w => idOf v < idOf w := by
  refine List.pairwise_map.2 (List.Pairwise.imp_of_mem ?_ t.sorted)
  intro e e' he he' hlt
  rwa [h (mem_entries_iff.1 he), h (mem_entries_iff.1 he')]

namespace Distribution

/-- Products and routes are kept under their own identifiers. -/
structure Filed (d : Distribution) : Prop where
  /-- The products are. -/
  products : ∀ {k p}, d.products.get? k = some p → p.id = k
  /-- The routes are. -/
  routes : ∀ {k r}, d.routes.get? k = some r → r.id = k

variable {d : Distribution} {id : String}

theorem Filed.empty : Filed ∅ := ⟨(nomatch ·), (nomatch ·)⟩

theorem Filed.putProduct (h : d.Filed) (p : Product) : (d.putProduct p).Filed where
  products hq := (Table.get?_insert_eq_some_iff.1 hq).elim (fun ⟨hk, hp⟩ => hp ▸ hk.symm)
    fun hq => h.products hq.2
  routes := h.routes

theorem Filed.putRoute (h : d.Filed) (r : Route) : (d.putRoute r).Filed where
  products := h.products
  routes hq := (Table.get?_insert_eq_some_iff.1 hq).elim (fun ⟨hk, hr⟩ => hr ▸ hk.symm)
    fun hq => h.routes hq.2

theorem Filed.mem_usersOf (h : d.Filed) {x : Referent} : x ∈ d.usersOf id ↔
    (∃ k p, x = .product k ∧ d.products.get? k = some p ∧ p.ruleId? = some id) ∨
      ∃ k r, x = .route k ∧ d.routes.get? k = some r ∧ r.ruleId = some id := by
  simp only [usersOf, List.mem_append, List.mem_map, List.mem_filter, beq_iff_eq,
    Table.mem_values_iff]
  refine or_congr ⟨?_, ?_⟩ ⟨?_, ?_⟩
  · rintro ⟨p, ⟨⟨k, hk⟩, hp⟩, rfl⟩
    exact ⟨k, p, by rw [h.products hk], hk, hp⟩
  · rintro ⟨k, p, rfl, hk, hp⟩
    exact ⟨p, ⟨⟨k, hk⟩, hp⟩, by rw [h.products hk]⟩
  · rintro ⟨r, ⟨⟨k, hk⟩, hr⟩, rfl⟩
    exact ⟨k, r, by rw [h.routes hk], hk, hr⟩
  · rintro ⟨k, r, rfl, hk, hr⟩
    exact ⟨r, ⟨⟨k, hk⟩, hr⟩, by rw [h.routes hk]⟩

theorem Filed.ordered_usersOf (h : d.Filed) (id : String) :
    (d.usersOf id).Pairwise Referent.Before := by
  refine Referent.ordered_append (Referent.ordered_map (fun _ _ => rfl) ?_)
    (Referent.ordered_map (fun _ _ => rfl) ?_) ?_
  · exact (Table.pairwise_values h.products).filter _
  · exact (Table.pairwise_values h.routes).filter _
  · intro x hx y hy
    obtain ⟨p, -, rfl⟩ := List.mem_map.1 hx
    obtain ⟨r, -, rfl⟩ := List.mem_map.1 hy
    exact Nat.lt_succ_self 1

end Distribution

/-! ### Deletions of the rulebook -/

namespace UserTable

variable {s t : UserTable} {rules : Table Rule} {names : Rule → IdSet} {id k u : String}

/-- An index that is exact for the rules without one lists what was listed, without that one. -/
theorem Lists.mem_users_erase (h : t.Lists rules names) (hs : s.Lists (rules.erase id) names) :
    u ∈ s.users k ↔ u ≠ id ∧ u ∈ t.users k := by
  simp only [h k u, hs k u, Table.get?_erase_eq_some_iff, and_assoc, exists_and_left]

end UserTable

namespace Rulebook

variable {b : Rulebook} {r : Rule} {c : Condition} {id : String}

theorem deleteRule_eq_error {others : List Referent} (hr : b.rules.get? id = some r)
    (h : (b.dependents.usersOfRule id false).toList.map .rule ++ others ≠ []) :
    b.deleteRule others id = .error (.stillReferenced id
      ((b.dependents.usersOfRule id false).toList.map .rule ++ others)) := by
  have husers : (!((b.dependents.usersOfRule id false).toList.map Referent.rule ++
      others).isEmpty) = true := by
    simpa only [Bool.not_eq_true', ← Bool.not_eq_true, List.isEmpty_iff] using h
  rw [deleteRule, rule_eq_ok_iff.2 hr]
  simp only [husers, if_true]
  rfl

theorem deleteCondition_eq_error (h : (b.dependents.usersOfCondition id false).toList ≠ []) :
    b.deleteCondition id = .error (.stillReferenced id
      ((b.dependents.usersOfCondition id false).toList.map .rule)) := by
  have husers : (!(b.dependents.usersOfCondition id false).toList.isEmpty) = true := by
    simpa only [Bool.not_eq_true', ← Bool.not_eq_true, List.isEmpty_iff] using h
  rw [deleteCondition]
  simp only [husers, if_true]
  rfl

end Rulebook

namespace Desk

open Rulebook

/-! ### Users -/

/-- What uses a rule: the saved rules with it as a parent, and the products and routes with it. -/
def RuleUser (d : Desk) (id : String) : Referent → Prop
  | .rule k => ∃ r, d.book.rules.get? k = some r ∧ ∃ c ∈ r.clauses, id ∈ c.parents
  | .product k => ∃ p, d.distribution.products.get? k = some p ∧ p.ruleId? = some id
  | .route k => ∃ r, d.distribution.routes.get? k = some r ∧ r.ruleId = some id

/-- What uses a condition: the saved rules with it in some clause. -/
def ConditionUser (d : Desk) (id : String) : Referent → Prop
  | .rule k => ∃ r, d.book.rules.get? k = some r ∧ ∃ c ∈ r.clauses, id ∈ c.conditions
  | .product _ => False
  | .route _ => False

variable {d d' : Desk} {r : Rule} {c : Condition} {id : String}

/-- The users of a rule that are looked up are all that there are. -/
theorem listing_ruleUsers (hb : d.book.Sound) (hd : d.distribution.Filed) (id : String) :
    Referent.Listing ((d.book.dependents.usersOfRule id false).toList.map .rule ++
      d.distribution.usersOf id) (d.RuleUser id) := by
  refine .of_ordered (Referent.ordered_append ?_ (hd.ordered_usersOf id) ?_) fun x => ?_
  · exact Referent.ordered_map (fun _ _ => rfl) (IdSet.pairwise_toList _)
  · intro x hx y hy
    obtain ⟨k, -, rfl⟩ := List.mem_map.1 hx
    rcases hd.mem_usersOf.1 hy with ⟨_, _, rfl, -⟩ | ⟨_, _, rfl, -⟩
    · exact Nat.zero_lt_one
    · exact Nat.zero_lt_two
  · rw [List.mem_append, hd.mem_usersOf]
    cases x with
    | rule k => simp [RuleUser, IdSet.mem_toList, ← Rule.mem_parentIds, ← hb.listsRules id k,
        Dependents.usersOfRule]
    | product k => simp [RuleUser]
    | route k => simp [RuleUser]

/-- The users of a condition that are looked up are all that there are. -/
theorem listing_conditionUsers (hb : d.book.Sound) (id : String) :
    Referent.Listing ((d.book.dependents.usersOfCondition id false).toList.map .rule)
      (d.ConditionUser id) := by
  refine .of_ordered (Referent.ordered_map (fun _ _ => rfl) (IdSet.pairwise_toList _)) fun x => ?_
  cases x with
  | rule k => simp [ConditionUser, IdSet.mem_toList, ← Rule.mem_conditionIds,
      ← hb.listsConditions id k, Dependents.usersOfCondition]
  | product k => simp [ConditionUser]
  | route k => simp [ConditionUser]

/-! ### What is gone -/

/-- The desk lacks the rule, and the index what the rule itself named. -/
structure RuleGone (d : Desk) (id : String) (d' : Desk) : Prop where
  /-- The meaning of the fields stays. -/
  schema : d'.schema = d.schema
  /-- Products, subscribers and routes stay. -/
  distribution : d'.distribution = d.distribution
  /-- All conditions stay. -/
  conditions : d'.book.conditions = d.book.conditions
  /-- All other rules stay. -/
  rules : ∀ k, d'.book.rules.get? k = if k = id then none else d.book.rules.get? k
  /-- The rule is no longer a user of conditions, and all other users stay. -/
  condition_users : ∀ k u, u ∈ d'.book.dependents.usersOfCondition k false ↔
    u ≠ id ∧ u ∈ d.book.dependents.usersOfCondition k false
  /-- The rule is no longer a user of rules, and all other users stay. -/
  rule_users : ∀ k u, u ∈ d'.book.dependents.usersOfRule k false ↔
    u ≠ id ∧ u ∈ d.book.dependents.usersOfRule k false
  /-- The verdicts on the rule are forgotten. -/
  verdicts : d'.verdicts = d.verdicts.forget ((∅ : IdSet).insert id)

/-- The desk lacks the condition, and is the same otherwise. -/
structure ConditionGone (d : Desk) (id : String) (d' : Desk) : Prop where
  /-- All other conditions stay. -/
  conditions : ∀ k, d'.book.conditions.get? k = if k = id then none else d.book.conditions.get? k
  /-- Nothing else changes. -/
  rest : d' = { d with book := { d.book with conditions := d'.book.conditions } }

theorem ruleGone_of_deleteRule (hb : d.book.Sound) (h : d.deleteRule id = .ok (r, d')) :
    d.RuleGone id d' := by
  obtain ⟨book, hbook, rfl⟩ := deleteRule_eq_ok_iff.1 h
  have hsound := hb.deleteRule hbook
  obtain ⟨-, -, -, rfl⟩ := Rulebook.deleteRule_eq_ok_iff.1 hbook
  exact {
    schema := rfl
    distribution := rfl
    conditions := rfl
    rules := Table.get?_erase d.book.rules id
    condition_users := fun k u => hb.listsConditions.mem_users_erase hsound.listsConditions
    rule_users := fun k u => hb.listsRules.mem_users_erase hsound.listsRules
    verdicts := rfl }

theorem conditionGone_of_deleteCondition (h : d.deleteCondition id = .ok (c, d')) :
    d.ConditionGone id d' := by
  obtain ⟨book, hbook, rfl⟩ := deleteCondition_eq_ok_iff.1 h
  obtain ⟨-, -, rfl⟩ := Rulebook.deleteCondition_eq_ok_iff.1 hbook
  exact ⟨Table.get?_erase d.book.conditions id, rfl⟩

/-! ### Guards -/

/-- A deletion of `saved` is guarded: it succeeds exactly if there are no users, and is refused with
the list of them otherwise.  `gone` says what a success leaves. -/
structure Guarded {α : Type} (id : String) (saved : α) (user : Referent → Prop) (gone : Desk → Prop)
    (x : Except RuleError (α × Desk)) : Prop where
  /-- What nothing uses can be deleted. -/
  done_iff : (∃ d', x = .ok (saved, d')) ↔ ∀ u, ¬user u
  /-- What something uses cannot be deleted, and all users are told. -/
  refused : ∀ u, user u →
    ∃ users, x = .error (.stillReferenced id users) ∧ Referent.Listing users user
  /-- A success gives what was saved, and leaves all but that. -/
  effect : ∀ removed d', x = .ok (removed, d') → removed = saved ∧ gone d'

/-- A deletion is guarded when it looks its users up and goes by whether there are any. -/
theorem Guarded.of_listing {α : Type} {saved : α} {user : Referent → Prop} {gone : Desk → Prop}
    {x : Except RuleError (α × Desk)} {users : List Referent}
    (hlisting : Referent.Listing users user) (hdone : users = [] → ∃ d', x = .ok (saved, d'))
    (hrefused : users ≠ [] → x = .error (.stillReferenced id users))
    (hgone : ∀ removed d', x = .ok (removed, d') → gone d') : Guarded id saved user gone x := by
  have hdone_iff : (∃ d', x = .ok (saved, d')) ↔ users = [] := by
    refine ⟨fun ⟨d', hd'⟩ => ?_, hdone⟩
    by_contra hne
    cases hd'.symm.trans (hrefused hne)
  refine ⟨hdone_iff.trans hlisting.eq_nil_iff, fun u hu => ?_, fun removed d' hx => ?_⟩
  · have hne : users ≠ [] := List.ne_nil_of_mem ((hlisting.mem_iff u).2 hu)
    exact ⟨users, hrefused hne, hlisting⟩
  · refine ⟨?_, hgone removed d' hx⟩
    by_cases hnil : users = []
    · obtain ⟨e, he⟩ := hdone hnil
      cases hx.symm.trans he
      rfl
    · cases hx.symm.trans (hrefused hnil)

/-- The users that a refusal tells. -/
def usersTold {α : Type} : Except RuleError α → List Referent
  | .ok _ => []
  | .error e => e.referents

theorem Guarded.eq_error {α : Type} {saved : α} {user : Referent → Prop} {gone : Desk → Prop}
    {x : Except RuleError (α × Desk)} (h : Guarded id saved user gone x) {u : Referent}
    {us : List Referent} (hx : usersTold x = u :: us) :
    x = .error (.stillReferenced id (u :: us)) := by
  cases x with
  | ok y => cases hx
  | error e =>
    have hused : ¬∀ u, ¬user u := fun hno => by
      obtain ⟨d', hd'⟩ := h.done_iff.2 hno
      cases hd'
    obtain ⟨v, hv⟩ := not_forall_not.1 hused
    obtain ⟨users, ⟨⟩, -⟩ := h.refused v hv
    obtain rfl : users = u :: us := hx
    rfl

theorem guarded_deleteRule (hb : d.book.Sound) (hd : d.distribution.Filed)
    (hr : d.book.rules.get? id = some r) :
    Guarded id r (d.RuleUser id) (d.RuleGone id) (d.deleteRule id) := by
  refine .of_listing (listing_ruleUsers hb hd id) (fun hnil => ?_) (fun hne => ?_)
    fun _ _ h => ruleGone_of_deleteRule hb h
  · obtain ⟨hrules, hothers⟩ := List.append_eq_nil_iff.1 hnil
    have hno := IdSet.toList_eq_nil_iff.1 (List.map_eq_nil_iff.1 hrules)
    exact ⟨_, deleteRule_eq_ok_iff.2
      ⟨_, Rulebook.deleteRule_eq_ok_iff.2 ⟨hr, hno, hothers, rfl⟩, rfl⟩⟩
  · rw [deleteRule, otherUsers, Rulebook.deleteRule_eq_error hr hne]
    rfl

theorem guarded_deleteCondition (hb : d.book.Sound) (hc : d.book.conditions.get? id = some c) :
    Guarded id c (d.ConditionUser id) (d.ConditionGone id) (d.deleteCondition id) := by
  refine .of_listing (listing_conditionUsers hb id) (fun hnil => ?_) (fun hne => ?_)
    fun _ _ h => conditionGone_of_deleteCondition h
  · have hno := IdSet.toList_eq_nil_iff.1 (List.map_eq_nil_iff.1 hnil)
    exact ⟨_, deleteCondition_eq_ok_iff.2
      ⟨_, Rulebook.deleteCondition_eq_ok_iff.2 ⟨hc, hno, rfl⟩, rfl⟩⟩
  · rw [deleteCondition, Rulebook.deleteCondition_eq_error fun h => hne (by rw [h]; rfl)]
    rfl

/-- Every deletion of something that is saved is guarded. -/
structure GuardsDeletion (d : Desk) : Prop where
  /-- Rules are guarded by rules, products and routes. -/
  rules : ∀ {id r}, d.book.rules.get? id = some r →
    Guarded id r (d.RuleUser id) (d.RuleGone id) (d.deleteRule id)
  /-- Conditions are guarded by rules. -/
  conditions : ∀ {id c}, d.book.conditions.get? id = some c →
    Guarded id c (d.ConditionUser id) (d.ConditionGone id) (d.deleteCondition id)

/-! ### Runs -/

/-- No request, whether it succeeds or fails, misplaces a product or a route. -/
theorem filed_perform (h : d.distribution.Filed) (q : Request) :
    (d.perform q).2.distribution.Filed := by
  have hkept : Outlasts (fun _ e => e.Filed) d q := by
    constructor
    case saveProduct => exact h.putProduct
    case saveSubscriber => exact fun _ => ⟨h.products, h.routes⟩
    case saveRoute => exact h.putRoute
    -- the other operations are on the rulebook
    all_goals intros; exact h
  exact hkept.perform

/-- **After any requests to a new desk, whether they succeeded or failed, deletions are guarded
exactly.**  A saved rule goes if and only if no saved rule names it as a parent and no product and no
route names it; a saved condition goes if and only if no saved rule names it.  A refusal lists all of
these once and in order, and a success takes away nothing else. -/
theorem guardsDeletion_after (schema : Schema) (cache : CacheSettings) (requests : List Request) :
    ((Desk.new schema cache).after requests).GuardsDeletion := by
  obtain ⟨horderly, hfiled⟩ : ((Desk.new schema cache).after requests).Orderly ∧
      ((Desk.new schema cache).after requests).distribution.Filed :=
    @after_induction (fun d => d.Orderly ∧ d.distribution.Filed) _
      (fun q _ d hd => ⟨hd.1.perform q, filed_perform hd.2 q⟩) _ ⟨orderly_new schema cache, .empty⟩
  exact ⟨guarded_deleteRule horderly.1 hfiled, guarded_deleteCondition horderly.1⟩

/-- A rule with a product and a route, beside a rule on the same condition. -/
def usedRun : List Request :=
  [.change (.saveCondition (.ofParts "flood" "headline" .like "flood")),
    .change (.saveRule default (.new default "wire" "wire" [⟨.ofList ["flood"], ∅⟩])),
    .change (.saveRule default (.new default "local" "local" [⟨.ofList ["flood"], ∅⟩])),
    .change (.saveRoute ⟨"desk", "desk", some "wire"⟩),
    .change (.saveProduct ⟨"daily", "daily", some ⟨"wire", .permitting⟩⟩)]

theorem guardsDeletion_after_usedRun :
    ∃ d, d = (Desk.new (.ofLayout {}) {}).after usedRun ∧
      d.deleteRule "wire" = .error (.stillReferenced "wire" [.product "daily", .route "desk"]) ∧
      d.deleteCondition "flood" =
        .error (.stillReferenced "flood" [.rule "local", .rule "wire"]) ∧
      ∃ removed d', d.deleteRule "local" = .ok (removed, d') ∧ d.RuleGone "local" d' := by
  have hguards := guardsDeletion_after (.ofLayout {}) {} usedRun
  refine ⟨_, rfl, ?_, ?_, ?_⟩
  · have hsaved : (((Desk.new (.ofLayout {}) {}).after usedRun).book.rules.get? "wire").isSome =
        true := by decide +kernel
    obtain ⟨r, hr⟩ := Option.isSome_iff_exists.1 hsaved
    exact (hguards.rules hr).eq_error (by decide +kernel)
  · have hsaved : (((Desk.new (.ofLayout {}) {}).after usedRun).book.conditions.get?
        "flood").isSome = true := by decide +kernel
    obtain ⟨c, hc⟩ := Option.isSome_iff_exists.1 hsaved
    exact (hguards.conditions hc).eq_error (by decide +kernel)
  · have hsaved : (((Desk.new (.ofLayout {}) {}).after usedRun).book.rules.get? "local").isSome =
        true := by decide +kernel
    have hdone : (((Desk.new (.ofLayout {}) {}).after usedRun).deleteRule "local").toOption.isSome =
        true := by decide +kernel
    obtain ⟨r, hr⟩ := Option.isSome_iff_exists.1 hsaved
    obtain ⟨⟨removed, d'⟩, hremoved⟩ := exists_ok_of_isSome hdone
    exact ⟨removed, d', hremoved, ((hguards.rules hr).effect removed d' hremoved).2⟩

end Desk

end Newswire
