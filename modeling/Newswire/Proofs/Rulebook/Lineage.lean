import Newswire.Proofs.Rulebook.Walk

/-!
# Walks along parents

Evaluation and compilation keep the identifiers on their way and refuse to enter a rule inside
itself.  What this comes to is said here without a path, of an arbitrary rulebook: its rules may
name one another in circles, and name what is not saved.

* `Rulebook.Parent`, `Rulebook.IsWalk` : the steps from a rule to its saved parents, and the rules
  in the order in which such steps come to them.
* `Rulebook.Unrepeating`, `Rulebook.Stocked` : no walk comes to an identifier twice, and every rule
  on a walk has what it needs.
* `Rulebook.walk_induction` : what holds of a rule if it holds of its parents from inside holds of
  all.
* `Rulebook.walkable_empty_iff` : **exactly then can all of a rule be visited.**
-/

namespace Newswire

theorem VisitPath.enter_eq_error_iff {p : VisitPath} {id : String} {e : RuleError} :
    p.enter id = .error e ↔ id ∈ p.ids ∧ e = .cycle (p.ids ++ [id]) := by
  unfold enter
  split <;> simp_all [eq_comm]

namespace Rulebook

variable (b : Rulebook)

/-- The rule names the other one, which is saved, as a parent. -/
def Parent (r p : Rule) : Prop := ∃ id ∈ r.parentIds, b.rules.get? id = some p

/-- Each of the rules is a parent of the one before it. -/
def IsWalk (rules : List Rule) : Prop := rules.IsChain b.Parent

/-- A walk that is inside of the rules on `path` and goes on with the rule comes to no identifier
twice, whichever parents it takes. -/
def Clear (path : VisitPath) (r : Rule) : Prop :=
  ∀ rules, b.IsWalk (r :: rules) → ((r :: rules).map Rule.id).Nodup ∧
    ∀ id ∈ (r :: rules).map Rule.id, id ∉ path.ids

/-- No walk that begins with the rule comes to an identifier twice. -/
def Unrepeating (r : Rule) : Prop :=
  ∀ rules, b.IsWalk (r :: rules) → ((r :: rules).map Rule.id).Nodup

/-- The rule demands something in every clause, its conditions are saved and fit, and its parents
are saved. -/
structure Complete (fits : Condition → Prop) (r : Rule) : Prop where
  /-- It has clauses. -/
  clauses_ne : r.clauses ≠ []
  /-- Every clause demands something. -/
  clause_ne : ∀ c ∈ r.clauses, c.isEmpty = false
  /-- Its conditions are saved and fit. -/
  conditions : ∀ id ∈ r.conditionIds, ∃ c, b.conditions.get? id = some c ∧ fits c
  /-- Its parents are saved. -/
  parents : ∀ id ∈ r.parentIds, ∃ p, b.rules.get? id = some p

/-- Every rule on a walk that begins with the rule is complete. -/
def Stocked (fits : Condition → Prop) (r : Rule) : Prop :=
  ∀ rules, b.IsWalk (r :: rules) → ∀ p ∈ r :: rules, b.Complete fits p

variable {b} {fits : Condition → Prop} {path inside : VisitPath} {r p : Rule}

/-! ### What a look-up fails with -/

theorem condition_eq_error {id : String} {e : RuleError} (h : b.condition id = .error e) :
    e = .conditionNotFound id := by
  unfold condition at h
  split at h
  · cases h
  · exact (Except.error.inj h).symm

theorem rule_eq_error {id : String} {e : RuleError} (h : b.rule id = .error e) :
    e = .ruleNotFound id := by
  unfold rule at h
  split at h
  · cases h
  · exact (Except.error.inj h).symm

/-! ### One step at a time -/

theorem isWalk_singleton : b.IsWalk [r] := List.IsChain.singleton r

theorem isWalk_cons_cons {rules : List Rule} :
    b.IsWalk (r :: p :: rules) ↔ b.Parent r p ∧ b.IsWalk (p :: rules) := List.isChain_cons_cons

/-- A rule can be entered that is not on the path, and its parents are clear from inside. -/
theorem clear_iff : b.Clear path r ↔
    ∃ inside, path.enter r.id = .ok inside ∧ ∀ p, b.Parent r p → b.Clear inside p := by
  constructor
  · intro h
    have hr : r.id ∉ path.ids := (h [] isWalk_singleton).2 r.id (by simp)
    refine ⟨_, VisitPath.enter_eq_ok_iff.2 ⟨hr, rfl⟩, fun p hp rules hwalk => ?_⟩
    obtain ⟨hnodup, hpath⟩ := h (p :: rules) (isWalk_cons_cons.2 ⟨hp, hwalk⟩)
    rw [List.map_cons, List.nodup_cons] at hnodup
    refine ⟨hnodup.2, fun id hid hmem => ?_⟩
    rcases List.mem_append.1 hmem with hmem | hmem
    · exact hpath id (List.mem_cons_of_mem _ hid) hmem
    · exact hnodup.1 (List.mem_singleton.1 hmem ▸ hid)
  · rintro ⟨inside, hin, h⟩ rules hwalk
    obtain ⟨hr, rfl⟩ := VisitPath.enter_eq_ok_iff.1 hin
    match rules with
    | [] => exact ⟨by simp, by simpa using hr⟩
    | p :: rules =>
      obtain ⟨hp, hwalk⟩ := isWalk_cons_cons.1 hwalk
      obtain ⟨hnodup, hinside⟩ := h p hp rules hwalk
      have hrest : ∀ id ∈ (p :: rules).map Rule.id, id ∉ path.ids ∧ id ≠ r.id := fun id hid => by
        simpa using hinside id hid
      rw [List.map_cons, List.nodup_cons]
      refine ⟨⟨fun hid => (hrest r.id hid).2 rfl, hnodup⟩, fun id hid => ?_⟩
      rcases List.mem_cons.1 hid with rfl | hid
      · exact hr
      · exact (hrest id hid).1

theorem clear_empty_iff : b.Clear .empty r ↔ b.Unrepeating r :=
  forall₂_congr fun _ _ => and_iff_left fun _ _ => List.not_mem_nil

theorem stocked_iff :
    b.Stocked fits r ↔ b.Complete fits r ∧ ∀ p, b.Parent r p → b.Stocked fits p := by
  constructor
  · intro h
    refine ⟨h [] isWalk_singleton r List.mem_cons_self, fun p hp rules hwalk q hq => ?_⟩
    exact h (p :: rules) (isWalk_cons_cons.2 ⟨hp, hwalk⟩) q (List.mem_cons_of_mem _ hq)
  · rintro ⟨hr, h⟩ rules hwalk q hq
    rcases List.mem_cons.1 hq with rfl | hq
    · exact hr
    · match rules with
      | p :: rules =>
        obtain ⟨hp, hwalk⟩ := isWalk_cons_cons.1 hwalk
        exact h p hp rules hwalk q hq

/-! ### All of a walk -/

/-- **Induction along a walk**: the parents are met from inside, and the walk ends because there are
fewer and fewer saved rules that it is not inside of. -/
theorem walk_induction {P : VisitPath → Rule → Prop}
    (step : ∀ path r, (∀ inside p, path.enter r.id = .ok inside → b.Parent r p → P inside p) →
      P path r) (path : VisitPath) (r : Rule) : P path r := by
  -- the rule that the walk begins with need not be saved, so it does not count
  have saved : ∀ n path p, b.unvisited path = n → (∃ id, b.rules.get? id = some p) → P path p := by
    intro n
    induction n using Nat.strongRecOn with
    | _ n ih =>
      rintro path p rfl ⟨id, hp⟩
      refine step path p fun inside q hin hq => ?_
      obtain ⟨k, -, hk⟩ := hq
      exact ih _ (unvisited_enter_lt hp hin) inside q rfl ⟨k, hk⟩
  refine step path r fun inside p _ hp => ?_
  obtain ⟨id, -, hid⟩ := hp
  exact saved _ inside p rfl ⟨id, hid⟩

theorem Walkable.clear (h : b.Walkable fits path r) : b.Clear path r := by
  induction h with
  | enter hin _ _ _ _ _ ih =>
    refine clear_iff.2 ⟨_, hin, fun p hp => ?_⟩
    obtain ⟨id, hid, hp⟩ := hp
    exact ih id hid p hp

theorem Walkable.stocked (h : b.Walkable fits path r) : b.Stocked fits r := by
  induction h with
  | enter _ hne hclauses hconds hsaved _ ih =>
    refine stocked_iff.2 ⟨⟨hne, hclauses, hconds, hsaved⟩, fun p hp => ?_⟩
    obtain ⟨id, hid, hp⟩ := hp
    exact ih id hid p hp

theorem walkable_iff : b.Walkable fits path r ↔ b.Clear path r ∧ b.Stocked fits r := by
  refine ⟨fun h => ⟨h.clear, h.stocked⟩, ?_⟩
  induction path, r using b.walk_induction with
  | step path r ih =>
    rintro ⟨hclear, hstocked⟩
    obtain ⟨inside, hin, hinside⟩ := clear_iff.1 hclear
    obtain ⟨hr, hparents⟩ := stocked_iff.1 hstocked
    refine .enter hin hr.clauses_ne hr.clause_ne hr.conditions hr.parents fun id hid p hp => ?_
    have hparent : b.Parent r p := ⟨id, hid, hp⟩
    exact ih inside p hin hparent ⟨hinside p hparent, hparents p hparent⟩

/-- **All of a rule can be visited iff no walk comes to an identifier twice and every rule on a walk
is complete.** -/
theorem walkable_empty_iff :
    b.Walkable fits .empty r ↔ b.Unrepeating r ∧ b.Stocked fits r := by
  rw [walkable_iff, clear_empty_iff]

end Rulebook

end Newswire
