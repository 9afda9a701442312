import Newswire.Proofs.Rulebook.Index
import Newswire.Proofs.Rulebook.Walk

/-!
# The graph of parents

Saved rules name one another as parents.  What the graph of these names says about walks and about
changes is collected here.

* `acyclic_of_redirected` : giving one node of an acyclic graph other successors makes no circle
  when none of the new successors leads back to it.
* `Rulebook.WellFormed` : the saved rules are in order (`Rulebook.InOrder`) and have no circles.
  Every walk over a well-formed rulebook succeeds (`Rulebook.WellFormed.walkable`).
* `Rulebook.Grounded` : a rule, saved or not, demands only what is saved and is not inside itself.
  Its evaluation does not fail (`Rulebook.WellFormed.decides_grounded`).
* `Rulebook.Spares` : a change leaves some rules alone, with all that they lead to.  They are
  evaluated as before (`Rulebook.WellFormed.holds_eq`).
-/

namespace Newswire

section Redirected

open Relation

variable {α : Type} {G G' : α → α → Prop} {x : α}

theorem eq_or_transGen_of_redirected (hold : ∀ a b, G' a b → a ≠ x → G a b) {a y : α}
    (h : ReflTransGen G' a y) (hy : y = x) : a = x ∨ TransGen G a x := by
  induction h using ReflTransGen.head_induction_on with
  | refl => exact Or.inl hy
  | @head a c hac _ ih =>
    by_cases ha : a = x
    · exact Or.inl ha
    · have hedge := hold a c hac ha
      rcases ih with rfl | hc
      · exact Or.inr (.single hedge)
      · exact Or.inr (.head hedge hc)

/-- A walk to the redirected node from another one stays: its way there, up to the first time, uses
no edge out of that node. -/
theorem transGen_to_redirected (hnew : ∀ a b, G a b → a ≠ x → G' a b) {a : α}
    (h : TransGen G a x) (ha : a ≠ x) : TransGen G' a x := by
  induction h using TransGen.head_induction_on with
  | @single a hedge => exact .single (hnew a x hedge ha)
  | @head a c hac _ ih =>
    have hedge := hnew a c hac ha
    by_cases hc : c = x
    · exact .single (hc ▸ hedge)
    · exact .head hedge (ih hc)

/-- A walk uses old edges only, or it passes through the redirected node. -/
theorem transGen_or_through (hold : ∀ a b, G' a b → a ≠ x → G a b) {a b : α}
    (h : TransGen G' a b) : TransGen G a b ∨ (ReflTransGen G' a x ∧ TransGen G' x b) := by
  induction h with
  | @single b hab =>
    by_cases ha : a = x
    · exact Or.inr ⟨ha ▸ .refl, ha ▸ .single hab⟩
    · exact Or.inl (.single (hold a b hab ha))
  | @tail b c hab hbc ih =>
    by_cases hb : b = x
    · exact Or.inr ⟨hb ▸ hab.to_reflTransGen, hb ▸ .single hbc⟩
    · rcases ih with ih | ⟨hax, hxb⟩
      · exact Or.inl (.tail ih (hold b c hbc hb))
      · exact Or.inr ⟨hax, .tail hxb hbc⟩

/-- **Redirecting one node of an acyclic graph makes no circle** when no new successor is the node
itself or leads back to it. -/
theorem acyclic_of_redirected (hold : ∀ a b, G' a b → a ≠ x → G a b)
    (hacyclic : ∀ a, ¬TransGen G a a) (hback : ∀ b, G' x b → b ≠ x ∧ ¬TransGen G b x) (a : α) :
    ¬TransGen G' a a := by
  have hx : ¬TransGen G' x x := by
    intro h
    obtain ⟨b, hxb, hbx⟩ := TransGen.head'_iff.1 h
    obtain ⟨hne, hno⟩ := hback b hxb
    exact (eq_or_transGen_of_redirected hold hbx rfl).elim hne hno
  intro h
  rcases transGen_or_through hold h with h | ⟨hax, hxa⟩
  · exact hacyclic a h
  · exact hx (hxa.trans_left hax)

end Redirected

namespace Rulebook

open Relation

/-- The saved rule `u` names `k` as a parent. -/
def Names (b : Rulebook) (u k : String) : Prop :=
  ∃ r, b.rules.get? u = some r ∧ k ∈ r.parentIds

/-- The rule is in order: it demands something in every clause, and only what is saved. -/
structure InOrder (b : Rulebook) (r : Rule) : Prop where
  /-- It has an identifier. -/
  id_ne : r.id ≠ ""
  /-- It has clauses. -/
  clauses_ne : r.clauses ≠ []
  /-- Every clause demands something. -/
  clause_ne : ∀ c ∈ r.clauses, c.isEmpty = false
  /-- Its conditions are saved. -/
  conditions : ∀ k ∈ r.conditionIds, ∃ c, b.conditions.get? k = some c
  /-- Its parents are saved. -/
  parents : ∀ k ∈ r.parentIds, ∃ p, b.rules.get? k = some p

/-- The rule demands something in every clause, and only what is saved. -/
structure Resolves (b : Rulebook) (r : Rule) : Prop where
  /-- Every clause demands something. -/
  clause_ne : ∀ c ∈ r.clauses, c.isEmpty = false
  /-- Its conditions are saved. -/
  conditions : ∀ k ∈ r.conditionIds, ∃ c, b.conditions.get? k = some c
  /-- Its parents are saved. -/
  parents : ∀ k ∈ r.parentIds, ∃ p, b.rules.get? k = some p

/-- Besides, none of its parents leads back to it. -/
structure Grounded (b : Rulebook) (r : Rule) : Prop extends b.Resolves r where
  /-- It is not inside itself. -/
  apart : ∀ k ∈ r.parentIds, ¬ReflTransGen b.Names k r.id

/-- The saved rules are in order. -/
structure WellFormed (b : Rulebook) : Prop where
  /-- A rule is saved under its identifier. -/
  id_eq : ∀ {id r}, b.rules.get? id = some r → r.id = id
  /-- Every rule is in order. -/
  inOrder : ∀ {id r}, b.rules.get? id = some r → b.InOrder r
  /-- No rule leads back to itself. -/
  acyclic : ∀ u, ¬TransGen b.Names u u

variable {b b' : Rulebook} {fits f : Condition → Prop}

theorem WellFormed.empty : WellFormed ∅ where
  id_eq h := by cases h
  inOrder h := by cases h
  acyclic u h := by
    obtain ⟨_, ⟨r, hr, -⟩, -⟩ := TransGen.head'_iff.1 h
    cases hr

/-- **A walk comes to the end of every saved rule** that leads to nothing that the walk is inside
of. -/
theorem WellFormed.walkable (hb : b.WellFormed)
    (hfits : ∀ {id c}, b.conditions.get? id = some c → fits c) {path : VisitPath} {r : Rule}
    (hr : b.rules.get? r.id = some r)
    (hpath : ∀ k, ReflTransGen b.Names r.id k → k ∉ path.ids) : b.Walkable fits path r := by
  have hin : path.enter r.id = .ok ⟨path.ids ++ [r.id]⟩ :=
    VisitPath.enter_eq_ok_iff.2 ⟨hpath r.id .refl, rfl⟩
  have horder := hb.inOrder hr
  refine .enter hin horder.clauses_ne horder.clause_ne (fun id hid => ?_) horder.parents
    fun id hid p hp => ?_
  · obtain ⟨c, hc⟩ := horder.conditions id hid
    exact ⟨c, hc, hfits hc⟩
  · obtain rfl := hb.id_eq hp
    have hedge : b.Names r.id p.id := ⟨r, hr, hid⟩
    refine hb.walkable hfits hp fun k hk hmem => ?_
    -- what the parent leads to is not on the way so far, and not the rule: that would be a circle
    rcases List.mem_append.1 hmem with hmem | hmem
    · exact hpath k (.head hedge hk) hmem
    · obtain rfl := List.mem_singleton.1 hmem
      exact hb.acyclic r.id (.head' hedge hk)
termination_by b.unvisited path
decreasing_by exact unvisited_enter_lt hr hin

theorem WellFormed.walkable_saved (hb : b.WellFormed)
    (hfits : ∀ {id c}, b.conditions.get? id = some c → fits c) {id : String} {r : Rule}
    (hr : b.rules.get? id = some r) : b.Walkable fits .empty r := by
  obtain rfl := hb.id_eq hr
  exact hb.walkable hfits hr fun _ _ => List.not_mem_nil

theorem WellFormed.exists_of_leads (hb : b.WellFormed) {u k : String}
    (hu : ∃ r, b.rules.get? u = some r) (h : ReflTransGen b.Names u k) :
    ∃ p, b.rules.get? k = some p := by
  induction h with
  | refl => exact hu
  | tail _ hedge _ =>
    obtain ⟨r, hr, hk⟩ := hedge
    exact (hb.inOrder hr).parents _ hk

theorem InOrder.resolves {r : Rule} (h : b.InOrder r) : b.Resolves r :=
  ⟨h.clause_ne, h.conditions, h.parents⟩

theorem WellFormed.grounded_saved (hb : b.WellFormed) {id : String} {r : Rule}
    (hr : b.rules.get? id = some r) : b.Grounded r := by
  obtain rfl := hb.id_eq hr
  exact ⟨(hb.inOrder hr).resolves,
    fun k hk hback => hb.acyclic r.id (.head' ⟨r, hr, hk⟩ hback)⟩

/-- A rule that is not saved is grounded: its parents lead only to what is saved. -/
theorem WellFormed.grounded_new (hb : b.WellFormed) {r : Rule} (hr : b.Resolves r)
    (hnew : b.rules.get? r.id = none) : b.Grounded r := by
  refine ⟨hr, fun k hk hback => ?_⟩
  obtain ⟨p, hp⟩ := hb.exists_of_leads (hr.parents k hk) hback
  cases hnew.symm.trans hp

theorem WellFormed.walkable_grounded (hb : b.WellFormed)
    (hfits : ∀ {id c}, b.conditions.get? id = some c → fits c) {r : Rule} (hr : b.Grounded r)
    (hne : r.clauses ≠ []) : b.Walkable fits .empty r := by
  have hin : VisitPath.empty.enter r.id = .ok ⟨[r.id]⟩ :=
    VisitPath.enter_eq_ok_iff.2 ⟨List.not_mem_nil, rfl⟩
  refine .enter hin hne hr.clause_ne (fun k hk => ?_) hr.parents fun k hk p hp => ?_
  · obtain ⟨c, hc⟩ := hr.conditions k hk
    exact ⟨c, hc, hfits hc⟩
  · obtain rfl := hb.id_eq hp
    refine hb.walkable hfits hp fun j hj hmem => hr.apart p.id hk ?_
    exact List.mem_singleton.1 hmem ▸ hj

/-- A rule in order that is not saved yet is walkable from outside. -/
theorem WellFormed.walkable_new (hb : b.WellFormed)
    (hfits : ∀ {id c}, b.conditions.get? id = some c → fits c) {r : Rule} (hr : b.InOrder r)
    (hnew : b.rules.get? r.id = none) : b.Walkable fits .empty r :=
  hb.walkable_grounded hfits (hb.grounded_new hr.resolves hnew) hr.clauses_ne

/-- **Evaluation of a grounded rule does not fail**, and it decides whether the rule selects the
item. -/
theorem WellFormed.decides_grounded (hb : b.WellFormed) {r : Rule} (hr : b.Grounded r)
    (schema : Schema) (item : Json) : Decides (b.holds schema item (some r))
      (b.Selects (fun c => c.holds schema item = true) r) := by
  by_cases hne : r.clauses = []
  · -- nothing is visited
    refine ⟨false, ?_, by simp [selects_iff, hne]⟩
    show b.holdsFrom schema item .empty r = _
    rw [holdsFrom_eq, hne]
    rfl
  · have hwalk : b.Walkable (fun _ => True) .empty r :=
      hb.walkable_grounded (fun _ => trivial) hr hne
    exact hwalk.decides_holdsFrom

/-- **Evaluation of a saved rule does not fail**, and it decides whether the rule selects the
item. -/
theorem WellFormed.decides_holds (hb : b.WellFormed) {id : String} {r : Rule}
    (hr : b.rules.get? id = some r) (schema : Schema) (item : Json) :
    Decides (b.holds schema item (some r))
      (b.Selects (fun c => c.holds schema item = true) r) :=
  hb.decides_grounded (hb.grounded_saved hr) schema item

/-! ### What a verdict depends on -/

/-- The change from `b` to `b'` spares the rules in `K`: they and their conditions stay as they are,
and their parents are spared too. -/
structure Spares (b b' : Rulebook) (K : String → Prop) : Prop where
  /-- The rules stay. -/
  rules : ∀ {k}, K k → b'.rules.get? k = b.rules.get? k
  /-- Their conditions stay. -/
  conditions : ∀ {u r}, K u → b.rules.get? u = some r → ∀ k ∈ r.conditionIds,
    b'.conditions.get? k = b.conditions.get? k
  /-- Their parents are spared. -/
  parents : ∀ {u r}, K u → b.rules.get? u = some r → ∀ k ∈ r.parentIds, K k

variable {K : String → Prop} {id : String} {r : Rule}

theorem Spares.symm (h : Spares b b' K) : Spares b' b K where
  rules hK := (h.rules hK).symm
  conditions hK hr k hk := (h.conditions hK ((h.rules hK).symm.trans hr) k hk).symm
  parents hK hr := h.parents hK ((h.rules hK).symm.trans hr)

theorem Selects.of_spares (h : b.Selects f r) (hs : Spares b b' K) (hK : K id)
    (hr : b.rules.get? id = some r) : b'.Selects f r := by
  induction h generalizing id with
  | @clause r c hc hmet hsaved _ ih =>
    have hconditions : ∀ k ∈ c.conditions, b'.conditions.get? k = b.conditions.get? k :=
      fun k hk => hs.conditions hK hr k (Rule.mem_conditionIds.2 ⟨c, hc, hk⟩)
    have hparents : ∀ k ∈ c.parents, K k :=
      fun k hk => hs.parents hK hr k (Rule.mem_parentIds.2 ⟨c, hc, hk⟩)
    refine .clause hc (fun k hk => ?_) (fun k hk => ?_) fun k hk p hp => ?_
    · rw [hconditions k hk]
      exact hmet k hk
    · rw [hs.rules (hparents k hk)]
      exact hsaved k hk
    · rw [hs.rules (hparents k hk)] at hp
      exact ih k hk p hp (hparents k hk) hp

/-- **A rule that a change spares is evaluated as before.** -/
theorem WellFormed.holds_eq (hb : b.WellFormed) (hb' : b'.WellFormed) (hs : Spares b b' K)
    (hK : K id) (hr : b.rules.get? id = some r) (schema : Schema) (item : Json) :
    b'.holds schema item (some r) = b.holds schema item (some r) := by
  have hr' : b'.rules.get? id = some r := (hs.rules hK).trans hr
  have hsame : b'.Selects (fun c => c.holds schema item = true) r ↔
      b.Selects (fun c => c.holds schema item = true) r :=
    ⟨fun h => h.of_spares hs.symm hK hr', fun h => h.of_spares hs hK hr⟩
  obtain ⟨v, hv, hv'⟩ :=
    (hb.decides_holds hr schema item).agree ((hb'.decides_holds hr' schema item).congr hsame)
  exact hv'.trans hv.symm

end Rulebook

end Newswire
