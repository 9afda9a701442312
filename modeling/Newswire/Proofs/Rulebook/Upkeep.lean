import Newswire.Proofs.Rulebook.Graph

/-!
# Keeping the rulebook in order

The rulebook changes by four operations.  What each of them checks and changes is stated once, and
the invariant is derived from that.

* `Rulebook.Admits` : what `Rulebook.checkRule` demands of a rule (`Rulebook.checkRule_eq_ok_iff`).
* `Rulebook.saveCondition_eq_ok_iff`, `Rulebook.saveRuleChecked_eq_ok_iff`,
  `Rulebook.deleteRule_eq_ok_iff`, `Rulebook.deleteCondition_eq_ok_iff` : when an operation
  succeeds, and with what.
* `Rulebook.Sound` : the rulebook is well-formed and its index of users is exact.  **Every operation
  keeps it** (`Rulebook.Sound.saveCondition`, `Rulebook.Sound.saveRuleChecked`,
  `Rulebook.Sound.deleteRule`, `Rulebook.Sound.deleteCondition`).
* `Rulebook.Sound.spares_saveCondition` and its siblings : which rules an operation leaves alone.
-/

namespace Newswire

namespace Rulebook

open Relation

variable {b b' : Rulebook} {r saved : Rule} {c : Condition} {now : Timestamp} {id : String}

/-! ### What the operations check and change -/

/-- The rule may be saved: it is in order, and it closes no circle. -/
structure Admits (b : Rulebook) (r : Rule) : Prop extends InOrder b r where
  /-- No parent is the rule itself or one of its users. -/
  no_circle : ∀ k ∈ r.parentIds, k ≠ r.id ∧ k ∉ b.dependents.ofRule.closure r.id

/-- A clause of a rule that may be saved: it demands something, and only what is saved or the rule
itself. -/
def AdmitsClause (b : Rulebook) (r : Rule) (c : Clause) : Prop :=
  c.isEmpty = false ∧ (∀ k ∈ c.conditions, ∃ c, b.conditions.get? k = some c) ∧
    ∀ k ∈ c.parents, k = r.id ∨ ∃ p, b.rules.get? k = some p

theorem checkClause_eq_ok_iff {index : Nat} {clause : Clause} :
    b.checkClause r index clause = .ok () ↔ b.AdmitsClause r clause := by
  have hconditions : clause.conditions.toList.find? (fun k => !b.conditions.contains k) = none ↔
      ∀ k ∈ clause.conditions, ∃ c, b.conditions.get? k = some c := by
    simp only [List.find?_eq_none, IdSet.mem_toList, Bool.not_eq_true,
      Table.not_contains_eq_false_iff]
  have hparents :
      clause.parents.toList.find? (fun k => k != r.id && !b.rules.contains k) = none ↔
        ∀ k ∈ clause.parents, k = r.id ∨ ∃ p, b.rules.get? k = some p := by
    simp only [List.find?_eq_none, IdSet.mem_toList, Bool.not_eq_true, Bool.and_eq_false_iff,
      bne_eq_false_iff_eq, Table.not_contains_eq_false_iff]
  rw [checkClause, AdmitsClause, ← hconditions, ← hparents]
  cases clause.isEmpty with
  | true => simp
  | false =>
    cases clause.conditions.toList.find? fun k => !b.conditions.contains k with
    | some _ => simp
    | none =>
      cases clause.parents.toList.find? fun k => k != r.id && !b.rules.contains k with
      | some _ => simp
      | none => simp

theorem closesCycle?_eq_none_iff {d : Dependents} {parents : List String} :
    d.closesCycle? id parents = none ↔ ∀ k ∈ parents, k ≠ id ∧ k ∉ d.ofRule.closure id := by
  simp only [Dependents.closesCycle?_eq_find?, List.find?_eq_none, decide_eq_true_eq,
    IdSet.mem_insert, not_or]
  rfl

theorem checkClauses_eq_ok_iff :
    (r.clauses.zipIdx.forM fun x => b.checkClause r x.2 x.1) = .ok () ↔
      ∀ c ∈ r.clauses, b.AdmitsClause r c := by
  rw [forM_eq_ok_iff, ← List.zipIdx_map_fst 0 r.clauses, List.forall_mem_map]
  simp only [List.zipIdx_map_fst, checkClause_eq_ok_iff]

/-- **The check of a rule is passed by the rules that may be saved.** -/
theorem checkRule_eq_ok_iff : b.checkRule r = .ok () ↔ b.Admits r := by
  unfold checkRule
  simp only [check_eq_ok_iff, bind_eq_ok_iff]
  constructor
  · rintro ⟨hid, hclauses, ⟨⟩, hclause, hcircle⟩
    rw [checkClauses_eq_ok_iff] at hclause
    have hnone : b.dependents.closesCycle? r.id r.parentIds.toList = none := by
      cases hc : b.dependents.closesCycle? r.id r.parentIds.toList with
      | none => rfl
      | some p =>
        rw [hc] at hcircle
        cases hcircle
    have hback := closesCycle?_eq_none_iff.1 hnone
    refine ⟨⟨by simpa using hid, by simpa using hclauses, fun c hc => (hclause c hc).1,
      fun k hk => ?_, fun k hk => ?_⟩, fun k hk => hback k (IdSet.mem_toList.2 hk)⟩
    · obtain ⟨c, hc, hkc⟩ := Rule.mem_conditionIds.1 hk
      exact (hclause c hc).2.1 k hkc
    · -- the check of the clauses lets the rule itself pass, the one for circles does not
      obtain ⟨c, hc, hkc⟩ := Rule.mem_parentIds.1 hk
      exact ((hclause c hc).2.2 k hkc).resolve_left (hback k (IdSet.mem_toList.2 hk)).1
  · intro h
    have hnone : b.dependents.closesCycle? r.id r.parentIds.toList = none :=
      closesCycle?_eq_none_iff.2 fun k hk => h.no_circle k (IdSet.mem_toList.1 hk)
    refine ⟨by simpa using h.id_ne, by simpa using h.clauses_ne, (),
      checkClauses_eq_ok_iff.2 fun c hc => ?_, ?_⟩
    · exact ⟨h.clause_ne c hc, fun k hk => h.conditions k (Rule.mem_conditionIds.2 ⟨c, hc, hk⟩),
        fun k hk => Or.inr (h.parents k (Rule.mem_parentIds.2 ⟨c, hc, hk⟩))⟩
    · rw [hnone]
      rfl

/-- A condition without a flaw is saved. -/
theorem saveCondition_eq_ok_iff : b.saveCondition c = .ok b' ↔
    checkCondition c = .ok () ∧ b' = { b with conditions := b.conditions.insert c.id c } := by
  rw [saveCondition, bind_eq_ok_iff]
  constructor
  · rintro ⟨⟨⟩, hc, hb'⟩
    exact ⟨hc, (Except.ok.inj hb').symm⟩
  · rintro ⟨hc, rfl⟩
    exact ⟨(), hc, rfl⟩

/-- A rule that may be saved and passes the further check is saved as the next version. -/
theorem saveRuleChecked_eq_ok_iff {extra : Rule → Except RuleError Unit} :
    b.saveRuleChecked now extra r = .ok (saved, b') ↔ b.Admits r ∧ extra r = .ok () ∧
      saved = nextVersion now (b.rules.get? r.id) r ∧
      b' = b.putRule (b.rules.get? r.id) saved := by
  rw [saveRuleChecked, bind_eq_ok_iff, ← checkRule_eq_ok_iff]
  simp only [bind_eq_ok_iff]
  constructor
  · rintro ⟨⟨⟩, hr, ⟨⟩, hextra, h⟩
    obtain ⟨rfl, rfl⟩ := Prod.mk.inj (Except.ok.inj h)
    exact ⟨hr, hextra, rfl, rfl⟩
  · rintro ⟨hr, hextra, rfl, rfl⟩
    exact ⟨(), hr, (), hextra, rfl⟩

/-- A saved rule without users is deleted. -/
theorem deleteRule_eq_ok_iff {others : List Referent} :
    b.deleteRule others id = .ok (r, b') ↔ b.rules.get? id = some r ∧
      (∀ u, u ∉ b.dependents.ofRule.users id) ∧ others = [] ∧
      b' = { b with rules := b.rules.erase id, dependents := b.dependents.unregister r } := by
  have husers : ¬(!((b.dependents.usersOfRule id false).toList.map Referent.rule ++
      others).isEmpty) = true ↔ (∀ u, u ∉ b.dependents.ofRule.users id) ∧ others = [] := by
    simp [Dependents.usersOfRule, IdSet.toList_eq_nil_iff]
  unfold deleteRule
  simp only [bind_eq_ok_iff, rule_eq_ok_iff, check_eq_ok_iff, husers]
  constructor
  · rintro ⟨old, hold, ⟨husers, hothers⟩, h⟩
    obtain ⟨rfl, rfl⟩ := Prod.mk.inj (Except.ok.inj h)
    exact ⟨hold, husers, hothers, rfl⟩
  · rintro ⟨hr, husers, hothers, rfl⟩
    exact ⟨r, hr, ⟨husers, hothers⟩, rfl⟩

/-- A saved condition without users is deleted. -/
theorem deleteCondition_eq_ok_iff :
    b.deleteCondition id = .ok (c, b') ↔ b.conditions.get? id = some c ∧
      (∀ u, u ∉ b.dependents.ofCondition.users id) ∧
      b' = { b with conditions := b.conditions.erase id } := by
  have husers : ¬(!(b.dependents.usersOfCondition id false).toList.isEmpty) = true ↔
      ∀ u, u ∉ b.dependents.ofCondition.users id := by
    simp [Dependents.usersOfCondition, IdSet.toList_eq_nil_iff]
  unfold deleteCondition
  simp only [bind_eq_ok_iff, condition_eq_ok_iff, check_eq_ok_iff, husers]
  constructor
  · rintro ⟨husers, old, hold, h⟩
    obtain ⟨rfl, rfl⟩ := Prod.mk.inj (Except.ok.inj h)
    exact ⟨hold, husers, rfl⟩
  · rintro ⟨hc, husers, rfl⟩
    exact ⟨husers, c, hc, rfl⟩

/-! ### The invariant -/

/-- The rulebook is well-formed, and its index lists exactly the users. -/
structure Sound (b : Rulebook) : Prop extends WellFormed b where
  /-- The users of the conditions. -/
  listsConditions : b.dependents.ofCondition.Lists b.rules Rule.conditionIds
  /-- The users of the rules. -/
  listsRules : b.dependents.ofRule.Lists b.rules Rule.parentIds

theorem Sound.empty : Sound ∅ := ⟨.empty, .empty, .empty⟩

variable {k u : String}

theorem Sound.uses_eq (hb : b.Sound) : b.dependents.ofRule.Uses = Function.swap b.Names := by
  funext k u
  exact propext (hb.listsRules k u)

/-- The indirect users of a rule are the rules that lead to it. -/
theorem Sound.mem_closure_iff (hb : b.Sound) :
    k ∈ b.dependents.ofRule.closure id ↔ k ≠ id ∧ TransGen b.Names k id := by
  rw [UserTable.mem_closure_iff, hb.uses_eq, transGen_swap]

/-- A rule that is not saved yet has no users, so it closes no circle. -/
theorem Sound.admits_new (hb : b.Sound) (hr : b.InOrder r) (hnew : b.rules.get? r.id = none) :
    b.Admits r where
  toInOrder := hr
  no_circle k hk := by
    have hsaved := hr.parents k hk
    refine ⟨fun heq => ?_, fun hback => ?_⟩
    · obtain ⟨p, hp⟩ := hsaved
      rw [heq, hnew] at hp
      cases hp
    · have hleads := (hb.mem_closure_iff.1 hback).2.to_reflTransGen
      obtain ⟨p, hp⟩ := hb.exists_of_leads hsaved hleads
      cases hnew.symm.trans hp

theorem Sound.ne_of_no_users_of_condition (hb : b.Sound)
    (hno : ∀ u, u ∉ b.dependents.ofCondition.users id) (hr : b.rules.get? u = some r)
    (hk : k ∈ r.conditionIds) : k ≠ id := by
  rintro rfl
  exact hno u ((hb.listsConditions k u).2 ⟨r, hr, hk⟩)

theorem Sound.ne_of_no_users_of_rule (hb : b.Sound)
    (hno : ∀ u, u ∉ b.dependents.ofRule.users id) (hr : b.rules.get? u = some r)
    (hk : k ∈ r.parentIds) : k ≠ id := by
  rintro rfl
  exact hno u ((hb.listsRules k u).2 ⟨r, hr, hk⟩)

/-- Saving a condition keeps the invariant: everything that was saved still is. -/
theorem Sound.saveCondition (hb : b.Sound) (h : b.saveCondition c = .ok b') : b'.Sound := by
  obtain ⟨-, rfl⟩ := saveCondition_eq_ok_iff.1 h
  refine { hb with inOrder := fun {_ r} hr => { hb.inOrder hr with conditions := fun k hk => ?_ } }
  exact Table.exists_get?_insert c ((hb.inOrder hr).conditions k hk)

/-- Deleting a condition keeps the invariant: no rule names it. -/
theorem Sound.deleteCondition (hb : b.Sound) (h : b.deleteCondition id = .ok (c, b')) :
    b'.Sound := by
  obtain ⟨-, hno, rfl⟩ := deleteCondition_eq_ok_iff.1 h
  refine { hb with inOrder := fun {_ r} hr => { hb.inOrder hr with conditions := fun k hk => ?_ } }
  obtain ⟨old, hold⟩ := (hb.inOrder hr).conditions k hk
  exact ⟨old, Table.get?_erase_eq_some_iff.2 ⟨hb.ne_of_no_users_of_condition hno hr hk, hold⟩⟩

/-- Deleting a rule keeps the invariant: no rule names it as parent. -/
theorem Sound.deleteRule (hb : b.Sound) {others : List Referent}
    (h : b.deleteRule others id = .ok (r, b')) : b'.Sound := by
  obtain ⟨hr, hno, -, rfl⟩ := deleteRule_eq_ok_iff.1 h
  -- the rules that are left were saved before, so only their parents have to be looked at
  have hkept : ∀ {k p}, (b.rules.erase id).get? k = some p → b.rules.get? k = some p :=
    fun hp => (Table.get?_erase_eq_some_iff.1 hp).2
  refine { id_eq := fun hp => hb.id_eq (hkept hp), inOrder := fun hp => ?_, acyclic := ?_,
           listsConditions := hb.listsConditions.removeAll hr (hb.id_eq hr),
           listsRules := hb.listsRules.removeAll hr (hb.id_eq hr) }
  · refine { hb.inOrder (hkept hp) with parents := fun k hk => ?_ }
    obtain ⟨q, hq⟩ := (hb.inOrder (hkept hp)).parents k hk
    have hne := hb.ne_of_no_users_of_rule hno (hkept hp) hk
    exact ⟨q, Table.get?_erase_eq_some_iff.2 ⟨hne, hq⟩⟩
  · intro u hu
    refine hb.acyclic u (TransGen.mono ?_ u u hu)
    rintro a k ⟨p, hp, hk⟩
    exact ⟨p, hkept hp, hk⟩

theorem Sound.lists_putRule (hb : b.Sound) (r : Rule) :
    (b.putRule (b.rules.get? r.id) r).dependents.ofCondition.Lists (b.rules.insert r.id r)
        Rule.conditionIds ∧
      (b.putRule (b.rules.get? r.id) r).dependents.ofRule.Lists (b.rules.insert r.id r)
        Rule.parentIds := by
  cases hold : b.rules.get? r.id with
  | none => exact ⟨hb.listsConditions.addAll hold, hb.listsRules.addAll hold⟩
  | some old =>
    have hid := hb.id_eq hold
    exact ⟨hb.listsConditions.change hold hid, hb.listsRules.change hold hid⟩

/-- Putting a rule in that may be saved keeps the invariant. -/
theorem Sound.putRule (hb : b.Sound) (hr : b.Admits r) :
    (b.putRule (b.rules.get? r.id) r).Sound := by
  have hget : ∀ {k p}, (b.rules.insert r.id r).get? k = some p →
      (k = r.id ∧ r = p) ∨ (k ≠ r.id ∧ b.rules.get? k = some p) := Table.get?_insert_eq_some_iff.1
  refine { id_eq := ?_, inOrder := ?_, acyclic := ?_, listsConditions := (hb.lists_putRule r).1,
           listsRules := (hb.lists_putRule r).2 }
  · intro k p hp
    rcases hget hp with ⟨rfl, rfl⟩ | ⟨-, hp⟩
    · rfl
    · exact hb.id_eq hp
  · intro k p hp
    have horder : b.InOrder p := by
      rcases hget hp with ⟨-, rfl⟩ | ⟨-, hp⟩
      · exact hr.toInOrder
      · exact hb.inOrder hp
    exact { horder with
      parents := fun id hid => Table.exists_get?_insert r (horder.parents id hid) }
  · -- only the edges out of the rule change, and none of them leads to what leads back to it
    refine @acyclic_of_redirected _ b.Names _ r.id ?_ hb.acyclic ?_
    · rintro u k ⟨p, hp, hk⟩ hu
      rcases hget hp with ⟨rfl, -⟩ | ⟨-, hp⟩
      · exact absurd rfl hu
      · exact ⟨p, hp, hk⟩
    · rintro k ⟨p, hp, hk⟩
      rcases hget hp with ⟨-, rfl⟩ | ⟨hne, -⟩
      · obtain ⟨hne, hno⟩ := hr.no_circle k hk
        exact ⟨hne, fun hback => hno (hb.mem_closure_iff.2 ⟨hne, hback⟩)⟩
      · exact absurd rfl hne

theorem id_nextVersion (previous : Option Rule) : (nextVersion now previous r).id = r.id := by
  cases previous <;> rfl

theorem Admits.nextVersion (h : b.Admits r) (previous : Option Rule) :
    b.Admits (nextVersion now previous r) := by
  -- a version has the clauses of the rule, and only another count and other dates
  have horder : b.InOrder (Rulebook.nextVersion now previous r) := by
    cases previous <;> exact ⟨h.id_ne, h.clauses_ne, h.clause_ne, h.conditions, h.parents⟩
  refine ⟨horder, ?_⟩
  cases previous <;> exact h.no_circle

/-- Saving a rule keeps the invariant, whatever else it is checked for. -/
theorem Sound.saveRuleChecked (hb : b.Sound) {extra : Rule → Except RuleError Unit}
    (h : b.saveRuleChecked now extra r = .ok (saved, b')) : b'.Sound := by
  obtain ⟨hr, -, rfl, rfl⟩ := saveRuleChecked_eq_ok_iff.1 h
  have hput := hb.putRule (@Admits.nextVersion b r now hr (b.rules.get? r.id))
  rwa [id_nextVersion] at hput

/-! ### What a change spares -/

theorem Sound.uses (hb : b.Sound) (hr : b.rules.get? u = some r) (hk : k ∈ r.parentIds) :
    b.dependents.ofRule.Uses k u :=
  (hb.listsRules k u).2 ⟨r, hr, hk⟩

/-- A changed condition spares all but its direct and indirect users. -/
theorem Sound.spares_saveCondition (hb : b.Sound) (h : b.saveCondition c = .ok b') :
    Spares b b' (· ∉ b'.dependents.usersOfCondition c.id true) := by
  obtain ⟨-, rfl⟩ := saveCondition_eq_ok_iff.1 h
  refine ⟨fun _ => rfl, fun {u r} hu hr k hk => ?_, fun {u r} hu hr k hk hconcerned => hu ?_⟩
  · -- a rule that names the condition is one of its users
    have hne : k ≠ c.id := by
      rintro rfl
      exact hu (Dependents.mem_usersOfCondition_iff.2
        ⟨u, (hb.listsConditions _ u).2 ⟨r, hr, hk⟩, .refl⟩)
    simp [Table.get?_insert, hne]
  · obtain ⟨a, ha, hreach⟩ := Dependents.mem_usersOfCondition_iff.1 hconcerned
    exact Dependents.mem_usersOfCondition_iff.2 ⟨a, ha, hreach.tail (hb.uses hr hk)⟩

/-- A changed rule spares all but itself and its direct and indirect users. -/
theorem Sound.spares_saveRuleChecked (hb : b.Sound) {extra : Rule → Except RuleError Unit}
    (h : b.saveRuleChecked now extra r = .ok (saved, b')) :
    Spares b b' (· ∉ (b'.dependents.usersOfRule saved.id true).insert saved.id) := by
  have hb' := hb.saveRuleChecked h
  obtain ⟨-, -, hsaved, hput⟩ := saveRuleChecked_eq_ok_iff.1 h
  have hrules : ∀ k, k ∉ (b'.dependents.usersOfRule saved.id true).insert saved.id →
      b'.rules.get? k = b.rules.get? k := by
    intro k hk
    have hne : k ≠ saved.id := fun hid => hk (IdSet.mem_insert.2 (Or.inl hid))
    rw [hput]
    simp [Rulebook.putRule, Table.get?_insert, hne]
  refine ⟨fun {k} => hrules k, fun _ _ k _ => by rw [hput]; rfl,
    fun {u p} hu hp k hk hconcerned => hu ?_⟩
  -- the users are those of the new rulebook, in which the spared rule is the same
  have hp' : b'.rules.get? u = some p := (hrules u hu).trans hp
  rw [Dependents.mem_insert_usersOfRule_iff] at hconcerned ⊢
  exact hconcerned.tail (hb'.uses hp' hk)

/-- A deleted rule spares all others: none of them names it. -/
theorem Sound.spares_deleteRule (hb : b.Sound) {others : List Referent}
    (h : b.deleteRule others id = .ok (r, b')) : Spares b b' (· ∉ (∅ : IdSet).insert id) := by
  obtain ⟨-, hno, -, rfl⟩ := deleteRule_eq_ok_iff.1 h
  have hmem : ∀ {k}, k ∈ (∅ : IdSet).insert id ↔ k = id := by
    intro k
    simp [IdSet.mem_insert]
  refine ⟨fun {k} hk => ?_, fun _ _ k _ => rfl, fun _ hp k hk => ?_⟩
  · rw [hmem] at hk
    simp [Table.get?_erase, hk]
  · rw [hmem]
    exact hb.ne_of_no_users_of_rule hno hp hk

theorem Sound.spares_deleteCondition (hb : b.Sound) (h : b.deleteCondition id = .ok (c, b')) :
    Spares b b' (· ∉ (∅ : IdSet)) := by
  obtain ⟨-, hno, rfl⟩ := deleteCondition_eq_ok_iff.1 h
  refine ⟨fun _ => rfl, fun _ hr k hk => ?_, fun _ _ k _ => IdSet.not_mem_empty k⟩
  simp [Table.get?_erase, hb.ne_of_no_users_of_condition hno hr hk]

end Rulebook

end Newswire
