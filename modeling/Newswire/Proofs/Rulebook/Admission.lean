import Newswire.Proofs.Rulebook.Exactness

/-!
# Which rules are admitted

Whether a rule closes a circle is decided before it is saved, by following the users of the rule in
an index that still holds what the old version names.  That decides about the graph after the
change.

* `Rulebook.NamesWith` : the graph of parents once a rule stands in place of its old version.
* `Rulebook.Proper` : what is demanded of a rule apart from circles.
* `Rulebook.WellFormed.acyclicWith_iff` : that graph has no circle iff, in the graph before, no
  parent of the rule leads back to it.
* `Rulebook.savesExactly_afterEdits` : **after any edits of a new rulebook, saving refuses no rule
  too many and none too few**, and what makes a circle is refused for that.
-/

namespace Newswire

namespace Rulebook

open Relation

variable {b : Rulebook} {r : Rule} {now : Timestamp} {k u : String}

/-- Who names whom as a parent once the rule stands in place of the one with its identifier. -/
def NamesWith (b : Rulebook) (r : Rule) (u k : String) : Prop :=
  if u = r.id then k ∈ r.parentIds else b.Names u k

/-- No rule leads back to itself once the rule stands in place of the one with its identifier. -/
def AcyclicWith (b : Rulebook) (r : Rule) : Prop := ∀ u, ¬TransGen (b.NamesWith r) u u

/-- The rule demands something in every clause, and only what is saved or the rule itself. -/
structure Proper (b : Rulebook) (r : Rule) : Prop where
  /-- It has an identifier. -/
  id_ne : r.id ≠ ""
  /-- It has clauses. -/
  clauses_ne : r.clauses ≠ []
  /-- Every clause demands something. -/
  clause_ne : ∀ c ∈ r.clauses, c.isEmpty = false
  /-- Its conditions are saved. -/
  conditions : ∀ k ∈ r.conditionIds, ∃ c, b.conditions.get? k = some c
  /-- Its parents are saved, or the rule itself. -/
  parents : ∀ k ∈ r.parentIds, k = r.id ∨ ∃ p, b.rules.get? k = some p

/-! ### The graph after the change -/

theorem namesWith_self : b.NamesWith r r.id k ↔ k ∈ r.parentIds := by simp [NamesWith]

theorem namesWith_of_ne (hu : u ≠ r.id) : b.NamesWith r u k ↔ b.Names u k := by
  simp [NamesWith, hu]

/-- A circle after the change goes through the rule, and its rest was there before: on the way back
to the rule it passes no edge out of the rule. -/
theorem WellFormed.acyclicWith_iff (hb : b.WellFormed) :
    b.AcyclicWith r ↔ ∀ k ∈ r.parentIds, ¬ReflTransGen b.Names k r.id := by
  constructor
  · intro h k hk hback
    have hedge : b.NamesWith r r.id k := namesWith_self.2 hk
    by_cases hself : k = r.id
    · exact h r.id (.single (hself ▸ hedge))
    · have hpath := (reflTransGen_iff_eq_or_transGen.1 hback).resolve_left (Ne.symm hself)
      have hnew := transGen_to_redirected (fun _ _ hnames hu => (namesWith_of_ne hu).2 hnames) hpath
        hself
      exact h r.id (.head hedge hnew)
  · intro h
    refine acyclic_of_redirected (fun _ _ hnames hu => (namesWith_of_ne hu).1 hnames) hb.acyclic
      fun k hedge => ?_
    have hno := h k (namesWith_self.1 hedge)
    exact ⟨fun hself => hno (hself ▸ .refl), fun hback => hno hback.to_reflTransGen⟩

/-- A rule may be saved iff it is proper and none of its parents leads back to it. -/
theorem Sound.admits_iff (hb : b.Sound) :
    b.Admits r ↔ b.Proper r ∧ ∀ k ∈ r.parentIds, ¬ReflTransGen b.Names k r.id := by
  have hback : ∀ k, (k ≠ r.id ∧ k ∉ b.dependents.ofRule.closure r.id) ↔
      ¬ReflTransGen b.Names k r.id := by
    intro k
    rw [hb.mem_closure_iff, reflTransGen_iff_eq_or_transGen, eq_comm (a := r.id)]
    tauto
  constructor
  · intro h
    exact ⟨⟨h.id_ne, h.clauses_ne, h.clause_ne, h.conditions, fun k hk => Or.inr (h.parents k hk)⟩,
      fun k hk => (hback k).1 (h.no_circle k hk)⟩
  · rintro ⟨h, hno⟩
    have hcircle : ∀ k ∈ r.parentIds, k ≠ r.id ∧ k ∉ b.dependents.ofRule.closure r.id :=
      fun k hk => (hback k).2 (hno k hk)
    exact ⟨⟨h.id_ne, h.clauses_ne, h.clause_ne, h.conditions,
      fun k hk => (h.parents k hk).resolve_left (hcircle k hk).1⟩, hcircle⟩

/-! ### What the check answers -/

theorem checkRule_of_proper (h : b.Proper r) : b.checkRule r =
    match b.dependents.closesCycle? r.id r.parentIds.toList with
    | some p => .error (.cycle (if p = r.id then [r.id, p] else [r.id, p, r.id]))
    | none => .ok () := by
  have hid : r.id.isEmpty = false := by simpa using h.id_ne
  have hclauses : r.clauses.isEmpty = false := by simpa using h.clauses_ne
  have hclause : (r.clauses.zipIdx.forM fun x => b.checkClause r x.2 x.1) = .ok () :=
    checkClauses_eq_ok_iff.2 fun c hc => ⟨h.clause_ne c hc,
      fun k hk => h.conditions k (Rule.mem_conditionIds.2 ⟨c, hc, hk⟩),
      fun k hk => h.parents k (Rule.mem_parentIds.2 ⟨c, hc, hk⟩)⟩
  unfold checkRule
  simp only [hid, hclauses, Bool.false_eq_true, if_false, hclause]
  cases b.dependents.closesCycle? r.id r.parentIds.toList with
  | some p => rfl
  | none => rfl

/-- The parent that is found to close a circle is the rule itself or leads back to it. -/
theorem Sound.leads_of_closesCycle? (hb : b.Sound) {p : String}
    (h : b.dependents.closesCycle? r.id r.parentIds.toList = some p) :
    p ∈ r.parentIds ∧ ReflTransGen b.Names p r.id := by
  rw [Dependents.closesCycle?_eq_find?] at h
  have hfound := List.find?_some h
  rw [decide_eq_true_eq, Dependents.mem_insert_usersOfRule_iff, hb.uses_eq,
    reflTransGen_swap] at hfound
  exact ⟨IdSet.mem_toList.1 (List.mem_of_find?_eq_some h), hfound⟩

theorem saveRule_eq_ok_iff : (∃ saved b', b.saveRule now r = .ok (saved, b')) ↔ b.Admits r := by
  constructor
  · rintro ⟨saved, b', h⟩
    exact (saveRuleChecked_eq_ok_iff.1 h).1
  · exact fun h => ⟨_, _, saveRuleChecked_eq_ok_iff.2 ⟨h, rfl, rfl, rfl⟩⟩

theorem saveRule_of_checkRule {e : RuleError} (h : b.checkRule r = .error e) :
    b.saveRule now r = .error e := by
  rw [saveRule, saveRuleChecked, h]
  rfl

/-! ### Saving -/

/-- Saving admits the rules that it has to, and says of a circle that it is one. -/
structure SavesExactly (b : Rulebook) : Prop where
  /-- The rules that are saved are the proper ones that make no circle. -/
  saves_iff : ∀ now r, (∃ saved b', b.saveRule now r = .ok (saved, b')) ↔
    b.Proper r ∧ b.AcyclicWith r
  /-- What is wrong with a circle only is refused for it, and a parent is named that the circle goes
  through. -/
  refuses_circle : ∀ now r, b.Proper r → ¬b.AcyclicWith r →
    ∃ p ∈ r.parentIds, ReflTransGen b.Names p r.id ∧
      b.saveRule now r = .error (.cycle (if p = r.id then [r.id, p] else [r.id, p, r.id]))
  /-- A rule is saved once it names no parent any more that leads back to it, whatever its old
  version names. -/
  saves_without_way_back : ∀ now r, b.Proper r →
    (∀ k ∈ r.parentIds, ¬ReflTransGen b.Names k r.id) →
    ∃ saved b', b.saveRule now r = .ok (saved, b')

theorem Sound.savesExactly (hb : b.Sound) : b.SavesExactly where
  saves_iff now r := by rw [saveRule_eq_ok_iff, hb.admits_iff, hb.acyclicWith_iff]
  refuses_circle now r h hcircle := by
    have hcheck := checkRule_of_proper h
    cases hp : b.dependents.closesCycle? r.id r.parentIds.toList with
    | none =>
      rw [hp, checkRule_eq_ok_iff, hb.admits_iff, ← hb.acyclicWith_iff] at hcheck
      exact absurd hcheck.2 hcircle
    | some p =>
      rw [hp] at hcheck
      obtain ⟨hmem, hback⟩ := hb.leads_of_closesCycle? hp
      exact ⟨p, hmem, hback, saveRule_of_checkRule hcheck⟩
  saves_without_way_back now r h hno := saveRule_eq_ok_iff.2 (hb.admits_iff.2 ⟨h, hno⟩)

/-- **After any edits of a new rulebook, whether they succeeded or failed, a rule is saved exactly
if it is proper and the graph in which it stands in place of its old version has no circle**; if
only a circle speaks against it, the circle is the error. -/
theorem savesExactly_afterEdits (edits : List Edit) :
    ((∅ : Rulebook).afterEdits edits).SavesExactly :=
  (Indexed.empty.afterEdits edits).toSound.savesExactly

end Rulebook

end Newswire
