import Mathlib.Logic.Hydra
import Mathlib.Tactic.Abel
import Newswire.Proofs.Rulebook.Graph

/-!
# Parents are abbreviations

A clause that names a parent says the same as several clauses that say what the clauses of the
parent say instead.  Writing rules out in this way goes on until no parent is named.

* `Rulebook.Inlines` : one parent of one clause is written out.
* `Rulebook.Inlines.selects_iff` : **the rule selects the same items**: a conjunction with a
  disjunction is the disjunction of the conjunctions.
* `Rulebook.Inlines.grounded` : the rule stays grounded, so that its evaluation does not fail.
  **The verdicts stay the same** (`Rulebook.WellFormed.holds_of_inlines`).
* `Rulebook.WellFormed.wellFounded_inlines` : **there is no endless writing out.**  A clause may
  come to name more parents, but all new ones lie below the one that is gone: this is a hydra, and
  the clauses of the rule are the heads of another one.
-/

namespace Newswire

open Relation

/-- The clause with what the clause `q` of the parent demands in place of the parent. -/
def Clause.inlined (c : Clause) (id : String) (q : Clause) : Clause :=
  ⟨c.conditions ∪ q.conditions, c.parents.erase id ∪ q.parents⟩

theorem Clause.isEmpty_eq_false_iff {c : Clause} :
    c.isEmpty = false ↔ (∃ id, id ∈ c.conditions) ∨ ∃ id, id ∈ c.parents := by
  rw [← Bool.not_eq_true, Clause.isEmpty, Bool.and_eq_true, IdSet.isEmpty_iff, IdSet.isEmpty_iff]
  simp only [← not_exists]
  tauto

theorem Clause.isEmpty_inlined {c q : Clause} {id : String} (hq : q.isEmpty = false) :
    (c.inlined id q).isEmpty = false := by
  rw [isEmpty_eq_false_iff] at hq ⊢
  rcases hq with ⟨k, hk⟩ | ⟨k, hk⟩
  · exact Or.inl ⟨k, IdSet.mem_union.2 (Or.inr hk)⟩
  · exact Or.inr ⟨k, IdSet.mem_union.2 (Or.inr hk)⟩

theorem Clause.mem_parents_inlined {c q : Clause} {id k : String} :
    k ∈ (c.inlined id q).parents ↔ (k ≠ id ∧ k ∈ c.parents) ∨ k ∈ q.parents := by
  rw [inlined, IdSet.mem_union, IdSet.mem_erase]

/-! ### Members, counted -/

/-- The members, each counted once. -/
def IdSet.members (s : IdSet) : Multiset String := ↑s.toList

theorem IdSet.mem_members {s : IdSet} {id : String} : id ∈ s.members ↔ id ∈ s := mem_toList

theorem IdSet.nodup_members (s : IdSet) : s.members.Nodup :=
  s.pairwise_toList.imp String.ne_of_lt

theorem IdSet.members_of_mem {s : IdSet} {id : String} (h : id ∈ s) :
    s.members = id ::ₘ (s.erase id).members := by
  have hnodup : (id ::ₘ (s.erase id).members).Nodup :=
    Multiset.nodup_cons.2 ⟨fun hmem => (mem_erase.1 (mem_members.1 hmem)).1 rfl, nodup_members _⟩
  refine (s.nodup_members.ext hnodup).2 fun k => ?_
  rw [Multiset.mem_cons, mem_members, mem_members, mem_erase]
  by_cases hk : k = id
  · simp [hk, h]
  · simp [hk]

theorem IdSet.members_union (s t : IdSet) :
    (s ∪ t).members = s.members + t.members.filter (· ∉ s) := by
  have hdisjoint : Disjoint s.members (t.members.filter (· ∉ s)) :=
    Multiset.disjoint_left.2 fun h h' => (Multiset.mem_filter.1 h').2 (mem_members.1 h)
  have hnodup : (s.members + t.members.filter (· ∉ s)).Nodup :=
    Multiset.nodup_add.2 ⟨s.nodup_members, t.nodup_members.filter _, hdisjoint⟩
  refine ((nodup_members _).ext hnodup).2 fun k => ?_
  rw [Multiset.mem_add, Multiset.mem_filter, mem_members, mem_members, mem_members, mem_union]
  tauto

namespace Rulebook

variable (b : Rulebook)

/-- One parent of one clause is written out: the clause makes room for as many clauses as the parent
has. -/
inductive Inlines : Rule → Rule → Prop
  /-- The clause `c` names the parent `p`. -/
  | step {r p : Rule} {before after : List Clause} {c : Clause} {id : String} :
      r.clauses = before ++ c :: after → id ∈ c.parents → b.rules.get? id = some p →
      Inlines r { r with clauses := before ++ p.clauses.map (c.inlined id) ++ after }

variable {b} {f : Condition → Prop} {r r' p : Rule} {c : Clause} {id : String}

/-! ### What is selected -/

/-- **A clause says what its versions without the parent say together.** -/
theorem clauseMet_iff_inlined (hid : id ∈ c.parents) (hp : b.rules.get? id = some p) :
    b.ClauseMet f c ↔ ∃ q ∈ p.clauses, b.ClauseMet f (c.inlined id q) := by
  constructor
  · rintro ⟨hconditions, hparents⟩
    obtain ⟨q, hq, hqconditions, hqparents⟩ :=
      selects_iff.1 ((exists_some_and_iff hp _).1 (hparents id hid))
    refine ⟨q, hq, fun k hk => ?_, fun k hk => ?_⟩
    · exact (IdSet.mem_union.1 hk).elim (hconditions k) (hqconditions k)
    · exact (Clause.mem_parents_inlined.1 hk).elim (fun h => hparents k h.2) (hqparents k)
  · rintro ⟨q, hq, hconditions, hparents⟩
    refine ⟨fun k hk => hconditions k (IdSet.mem_union.2 (Or.inl hk)), fun k hk => ?_⟩
    by_cases hself : k = id
    · subst hself
      refine ⟨p, hp, selects_iff.2 ⟨q, hq, fun j hj => ?_, fun j hj => ?_⟩⟩
      · exact hconditions j (IdSet.mem_union.2 (Or.inr hj))
      · exact hparents j (Clause.mem_parents_inlined.2 (Or.inr hj))
    · exact hparents k (Clause.mem_parents_inlined.2 (Or.inl ⟨hself, hk⟩))

theorem Inlines.selects_iff (h : b.Inlines r r') : b.Selects f r ↔ b.Selects f r' := by
  obtain ⟨hclauses, hid, hp⟩ := h
  rw [Rulebook.selects_iff, Rulebook.selects_iff, hclauses]
  simp only [List.mem_append, List.mem_cons, List.mem_map, or_and_right, exists_or,
    exists_eq_left, exists_exists_and_eq_and, clauseMet_iff_inlined hid hp, or_assoc]

theorem selects_iff_of_inlines (h : ReflTransGen b.Inlines r r') :
    b.Selects f r ↔ b.Selects f r' := by
  induction h with
  | refl => exact Iff.rfl
  | tail _ hstep ih => exact ih.trans hstep.selects_iff

/-! ### Evaluation -/

theorem WellFormed.grounded_unnamed (hb : b.WellFormed) (hid : r.id = "") (hr : b.Resolves r) :
    b.Grounded r := by
  refine hb.grounded_new hr (Option.eq_none_iff_forall_ne_some.2 fun p hp => ?_)
  exact (hb.inOrder hp).id_ne ((hb.id_eq hp).trans hid)

theorem Inlines.clause_cases (h : b.Inlines r r') : r'.id = r.id ∧
    ∃ c ∈ r.clauses, ∃ id ∈ c.parents, ∃ p, b.rules.get? id = some p ∧
      ∀ d ∈ r'.clauses, d ∈ r.clauses ∨ ∃ q ∈ p.clauses, d = c.inlined id q := by
  obtain @⟨p, before, after, c, id, hclauses, hid, hp⟩ := h
  have hc : c ∈ r.clauses := hclauses ▸ List.mem_append_right _ List.mem_cons_self
  refine ⟨rfl, c, hc, id, hid, p, hp, fun d hd => ?_⟩
  rw [hclauses]
  simp only [List.mem_append, List.mem_map, List.mem_cons] at hd ⊢
  rcases hd with (hd | ⟨q, hq, rfl⟩) | hd
  · exact Or.inl (Or.inl hd)
  · exact Or.inr ⟨q, hq, rfl⟩
  · exact Or.inl (Or.inr (Or.inr hd))

/-- A rule that is written out stays grounded: what it names newly is below what it named. -/
theorem Inlines.grounded (h : b.Inlines r r') (hb : b.WellFormed) (hr : b.Grounded r) :
    b.Grounded r' := by
  obtain ⟨hsame, c, hc, id, hid, p, hp, hcases⟩ := h.clause_cases
  have horder := hb.inOrder hp
  have hconditions : ∀ k ∈ r'.conditionIds, k ∈ r.conditionIds ∨ k ∈ p.conditionIds := by
    intro k hk
    obtain ⟨d, hd, hk⟩ := Rule.mem_conditionIds.1 hk
    rcases hcases d hd with hd | ⟨q, hq, rfl⟩
    · exact Or.inl (Rule.mem_conditionIds.2 ⟨d, hd, hk⟩)
    · exact (IdSet.mem_union.1 hk).imp (fun hk => Rule.mem_conditionIds.2 ⟨c, hc, hk⟩)
        fun hk => Rule.mem_conditionIds.2 ⟨q, hq, hk⟩
  have hparents : ∀ k ∈ r'.parentIds, k ∈ r.parentIds ∨ k ∈ p.parentIds := by
    intro k hk
    obtain ⟨d, hd, hk⟩ := Rule.mem_parentIds.1 hk
    rcases hcases d hd with hd | ⟨q, hq, rfl⟩
    · exact Or.inl (Rule.mem_parentIds.2 ⟨d, hd, hk⟩)
    · exact (Clause.mem_parents_inlined.1 hk).imp (fun hk => Rule.mem_parentIds.2 ⟨c, hc, hk.2⟩)
        fun hk => Rule.mem_parentIds.2 ⟨q, hq, hk⟩
  refine ⟨⟨fun d hd => ?_, fun k hk => ?_, fun k hk => ?_⟩, fun k hk hback => ?_⟩
  · rcases hcases d hd with hd | ⟨q, hq, rfl⟩
    · exact hr.clause_ne d hd
    · exact Clause.isEmpty_inlined (horder.clause_ne q hq)
  · exact (hconditions k hk).elim (hr.conditions k) (horder.conditions k)
  · exact (hparents k hk).elim (hr.parents k) (horder.parents k)
  · rw [hsame] at hback
    rcases hparents k hk with hk | hk
    · exact hr.apart k hk hback
    · exact hr.apart id (Rule.mem_parentIds.2 ⟨c, hc, hid⟩) (.head ⟨p, hp, hk⟩ hback)

theorem Grounded.of_inlines (hr : b.Grounded r) (hb : b.WellFormed)
    (h : ReflTransGen b.Inlines r r') : b.Grounded r' := by
  induction h with
  | refl => exact hr
  | tail _ hstep ih => exact hstep.grounded hb ih

/-- **A grounded rule and what it is written out to have the same verdict on every item.** -/
theorem WellFormed.holds_of_inlines (hb : b.WellFormed) (hr : b.Grounded r)
    (h : ReflTransGen b.Inlines r r') (schema : Schema) (item : Json) :
    ∃ v, b.holds schema item (some r) = .ok v ∧ b.holds schema item (some r') = .ok v :=
  (hb.decides_grounded hr schema item).agree
    ((hb.decides_grounded (hr.of_inlines hb h) schema item).congr (selects_iff_of_inlines h).symm)

/-! ### The end of writing out -/

/-- The parent lies below the rule that names it. -/
def Below (b : Rulebook) (k u : String) : Prop := b.Names u k

/-- The parents of the clauses, clause by clause. -/
def parentsOf (r : Rule) : Multiset (Multiset String) :=
  ↑(r.clauses.map fun c => c.parents.members)

/-- There is no endless way from a rule to its parents, since all of them can be visited. -/
theorem Walkable.acc_below {fits : Condition → Prop} {path : VisitPath}
    (h : b.Walkable fits path r) (hr : b.rules.get? id = some r) : Acc b.Below id := by
  induction h generalizing id with
  | enter _ _ _ _ hsaved _ ih =>
    refine .intro id fun k hk => ?_
    obtain ⟨r', hr', hk⟩ := hk
    obtain rfl := Option.some.inj (hr.symm.trans hr')
    obtain ⟨p, hp⟩ := hsaved k hk
    exact ih k hk p hp hp

theorem WellFormed.wellFounded_below (hb : b.WellFormed) : WellFounded b.Below := by
  refine ⟨fun id => ?_⟩
  cases hr : b.rules.get? id with
  | some r =>
    have hwalk : b.Walkable (fun _ => True) .empty r := hb.walkable_saved (fun _ => trivial) hr
    exact hwalk.acc_below hr
  | none =>
    refine .intro id fun k hk => ?_
    obtain ⟨r, hr', -⟩ := hk
    cases hr.symm.trans hr'

/-- In a clause the parent is gone, and the parents that are new lie below it. -/
theorem cutExpand_inlined {q : Clause} (hid : id ∈ c.parents) (hq : ∀ k ∈ q.parents, b.Below k id) :
    CutExpand b.Below (c.inlined id q).parents.members c.parents.members := by
  refine ⟨q.parents.members.filter (· ∉ c.parents.erase id), id, fun k hk => ?_, ?_⟩
  · exact hq k (IdSet.mem_members.1 (Multiset.mem_filter.1 hk).1)
  · rw [Clause.inlined, IdSet.members_union, IdSet.members_of_mem hid, ← Multiset.singleton_add]
    abel

/-- In a rule the clause is gone, and the clauses that are new lie below it. -/
theorem Inlines.cutExpand (h : b.Inlines r r') :
    CutExpand (CutExpand b.Below) (parentsOf r') (parentsOf r) := by
  obtain @⟨p, before, after, c, id, hclauses, hid, hp⟩ := h
  refine ⟨↑((p.clauses.map (c.inlined id)).map fun d => d.parents.members), c.parents.members,
    fun a ha => ?_, ?_⟩
  · rw [List.map_map, Multiset.mem_coe, List.mem_map] at ha
    obtain ⟨q, hq, rfl⟩ := ha
    exact cutExpand_inlined hid fun k hk => ⟨p, hp, Rule.mem_parentIds.2 ⟨q, hq, hk⟩⟩
  · simp only [parentsOf, hclauses, List.map_append, List.map_cons, ← Multiset.coe_add,
      ← Multiset.cons_coe, ← Multiset.singleton_add]
    abel

/-- **There is no endless writing out**, whichever parents are chosen. -/
theorem WellFormed.wellFounded_inlines (hb : b.WellFormed) :
    WellFounded fun r' r => b.Inlines r r' :=
  Subrelation.wf (fun h => h.cutExpand)
    (InvImage.wf parentsOf hb.wellFounded_below.cutExpand.cutExpand)

/-- Every grounded rule can be written out until it names no parents. -/
theorem WellFormed.exists_inlines (hb : b.WellFormed) (hr : b.Grounded r) :
    ∃ r', ReflTransGen b.Inlines r r' ∧ ∀ k, k ∉ r'.parentIds := by
  induction r using hb.wellFounded_inlines.induction with
  | _ r ih =>
    by_cases hnone : ∀ k, k ∉ r.parentIds
    · exact ⟨r, .refl, hnone⟩
    · obtain ⟨k, hk⟩ := not_forall_not.1 hnone
      obtain ⟨c, hc, hkc⟩ := Rule.mem_parentIds.1 hk
      obtain ⟨p, hp⟩ := hr.parents k hk
      obtain ⟨before, after, hclauses⟩ := List.append_of_mem hc
      have hstep : b.Inlines r _ := .step hclauses hkc hp
      obtain ⟨r', hsteps, hr'⟩ := ih _ hstep (hstep.grounded hb hr)
      exact ⟨r', .head hstep hsteps, hr'⟩

end Rulebook

end Newswire
