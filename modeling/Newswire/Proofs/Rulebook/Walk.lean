import Newswire.Proofs.Query.Decision
import Newswire.Query.Target
import Newswire.Rule.Evaluation

/-!
# Walks over rules

Evaluation and compilation walk from a rule to its parents, and both end by counting the rules that
the walk is not inside of.  Their meaning does not speak of the walk:

* `Rulebook.Walkable` : on its way the walk finds nothing missing, empty or circular.  Compilation
  succeeds exactly on walkable rules (`Rulebook.walkable_of_compileFrom`,
  `Rulebook.Walkable.exists_compileFrom`).
* `Rulebook.Selects` : some clause of the rule has all its conditions and parents satisfied.

**Both walks decide `Selects`.**  `Rulebook.Walkable.decides_holdsFrom` is evaluation, and
`Rulebook.Walkable.decides_compiled` is running a compiled query, for every way of running queries
under which conjunctions, disjunctions and the queries of the conditions are what they say
(`Faithful`).
-/

namespace Newswire

namespace Rulebook

variable (b : Rulebook) (schema : Schema) (item : Json) (target : Target)

/-! ### One step of a walk -/

/-- A clause holds of the item, on a walk that is inside the rule. -/
def clauseHolds (inside : VisitPath) (clause : Clause) : Except RuleError Bool := do
  if ← clause.conditions.toList.allM (b.conditionHolds schema item) then
    clause.parents.toList.allM fun id => do b.holdsFrom schema item inside (← b.rule id)
  else return false

/-- Evaluation of a rule is evaluation of its clauses, with the parents evaluated from inside. -/
theorem holdsFrom_eq (path : VisitPath) (r : Rule) :
    b.holdsFrom schema item path r = (do
      let inside ← path.enter r.id
      r.clauses.anyM (b.clauseHolds schema item inside)) := by
  rw [holdsFrom]
  congr 1
  funext inside
  -- the definition keeps the look-ups as equations, which its termination needs
  rw [someClauseHolds]
  congr 1
  funext clause
  unfold clauseHolds
  congr 1
  funext met
  split
  · congr 1
    funext id
    unfold rule holdsFrom
    split
    · next hr => rw [hr]; rfl
    · next parent hr =>
      rw [hr]
      split
      · next hq => simp only [bind, Except.bind, hq]; rfl
      · next hq => simp only [bind, Except.bind, hq]
  · rfl

/-- The query of a clause, on a walk that is inside the rule. -/
def clauseQuery (inside : VisitPath) (ruleId : String) (clause : Clause) (index : Nat) :
    Except RuleError Json := do
  if clause.isEmpty then throw (.emptyClause ruleId index)
  let conditions ← clause.conditions.toList.mapM (b.compileCondition schema target)
  let parents ← clause.parents.toList.mapM fun id => do
    b.compileFrom schema target inside (← b.rule id)
  return target.all (conditions ++ parents)

/-- Compilation of a rule is compilation of its clauses, with the parents compiled from inside. -/
theorem compileFrom_eq (path : VisitPath) (r : Rule) :
    b.compileFrom schema target path r = (do
      if r.clauses.isEmpty then throw (.emptyRule r.id)
      let inside ← path.enter r.id
      target.any <$> r.clauses.zipIdx.mapM fun (clause, index) =>
        b.clauseQuery schema target inside r.id clause index) := by
  rw [compileFrom]
  cases r.clauses.isEmpty with
  | true => rfl
  | false =>
    simp only [Bool.false_eq_true, if_false]
    congr 1
    funext inside
    rw [compileClauses]
    congr 2
    funext ⟨clause, index⟩
    unfold clauseQuery
    dsimp only
    cases clause.isEmpty with
    | true => rfl
    | false =>
      simp only [Bool.false_eq_true, if_false]
      congr 1
      funext conditions
      congr 2
      funext id
      unfold rule compileFrom
      split
      · next hr => rw [hr]; rfl
      · next parent hr =>
        rw [hr]
        show _ = (do
          if parent.clauses.isEmpty then throw (RuleError.emptyRule parent.id)
          let inside ← inside.enter parent.id
          target.any <$> b.compileClauses schema target inside parent)
        cases parent.clauses.isEmpty with
        | true => rfl
        | false =>
          simp only [Bool.false_eq_true, if_false]
          split
          · next hq => rw [hq]; rfl
          · next hq => rw [hq]; rfl

/-! ### What a walk comes to -/

/-- A rule demands a condition, itself or through its parents. -/
inductive Demands : Rule → Condition → Prop
  /-- Some clause of the rule names the condition. -/
  | own {r : Rule} {id : String} {c : Condition} :
      id ∈ r.conditionIds → b.conditions.get? id = some c → Demands r c
  /-- Some clause of the rule names a parent that demands the condition. -/
  | inherited {r p : Rule} {id : String} {c : Condition} :
      id ∈ r.parentIds → b.rules.get? id = some p → Demands p c → Demands r c

/-- On a walk with `path` the rule can be entered, it demands something in every clause, and all
conditions and parents that it names are saved, fit and walkable from inside. -/
inductive Walkable (fits : Condition → Prop) : VisitPath → Rule → Prop
  /-- The rule is entered and its parents are walkable from inside. -/
  | enter {path inside : VisitPath} {r : Rule} :
      path.enter r.id = .ok inside → r.clauses ≠ [] → (∀ c ∈ r.clauses, c.isEmpty = false) →
      (∀ id ∈ r.conditionIds, ∃ c, b.conditions.get? id = some c ∧ fits c) →
      (∀ id ∈ r.parentIds, ∃ p, b.rules.get? id = some p) →
      (∀ id ∈ r.parentIds, ∀ p, b.rules.get? id = some p → Walkable fits inside p) →
      Walkable fits path r

/-- A rule selects what satisfies all conditions and parents of some clause, when `f` says which
conditions are satisfied. -/
inductive Selects (f : Condition → Prop) : Rule → Prop
  /-- Some clause is satisfied. -/
  | clause {r : Rule} {c : Clause} :
      c ∈ r.clauses → (∀ id ∈ c.conditions, ∃ k, b.conditions.get? id = some k ∧ f k) →
      (∀ id ∈ c.parents, ∃ p, b.rules.get? id = some p) →
      (∀ id ∈ c.parents, ∀ p, b.rules.get? id = some p → Selects f p) → Selects f r

/-- All conditions and parents of a clause are satisfied. -/
def ClauseMet (f : Condition → Prop) (c : Clause) : Prop :=
  (∀ id ∈ c.conditions, ∃ k, b.conditions.get? id = some k ∧ f k) ∧
    ∀ id ∈ c.parents, ∃ p, b.rules.get? id = some p ∧ b.Selects f p

variable {b schema item target} {fits f g : Condition → Prop} {path inside : VisitPath} {r : Rule}

theorem exists_some_and_iff {α : Type} {o : Option α} {a : α} (h : o = some a) (p : α → Prop) :
    (∃ x, o = some x ∧ p x) ↔ p a := by
  simp [h]

theorem selects_iff : b.Selects f r ↔ ∃ c ∈ r.clauses, b.ClauseMet f c := by
  constructor
  · rintro ⟨hc, hconds, hsaved, hparents⟩
    refine ⟨_, hc, hconds, fun id hid => ?_⟩
    obtain ⟨p, hp⟩ := hsaved id hid
    exact ⟨p, hp, hparents id hid p hp⟩
  · rintro ⟨c, hc, hconds, hparents⟩
    refine .clause hc hconds (fun id hid => ?_) fun id hid p hp => ?_
    · obtain ⟨p, hp, -⟩ := hparents id hid
      exact ⟨p, hp⟩
    · exact (exists_some_and_iff hp _).1 (hparents id hid)

theorem Demands.exists_saved {c : Condition} (h : b.Demands r c) :
    ∃ id, b.conditions.get? id = some c := by
  induction h with
  | own _ hc => exact ⟨_, hc⟩
  | inherited _ _ _ ih => exact ih

theorem Walkable.imp (h : b.Walkable fits path r)
    (hfg : ∀ c, b.Demands r c → fits c → g c) : b.Walkable g path r := by
  induction h with
  | enter hin hne hclauses hconds hsaved _ ih =>
    refine .enter hin hne hclauses (fun id hid => ?_) hsaved fun id hid p hp => ?_
    · obtain ⟨c, hc, hfit⟩ := hconds id hid
      exact ⟨c, hc, hfg c (.own hid hc) hfit⟩
    · exact ih id hid p hp fun c hc => hfg c (.inherited hid hp hc)

/-- Only the conditions that the rule demands matter. -/
theorem Selects.imp (h : b.Selects f r) (hfg : ∀ c, b.Demands r c → f c → g c) :
    b.Selects g r := by
  induction h with
  | @clause r c hc hmet hsaved _ ih =>
    refine .clause hc (fun id hid => ?_) hsaved fun id hid p hp => ?_
    · obtain ⟨k, hk, hfk⟩ := hmet id hid
      exact ⟨k, hk, hfg k (.own (Rule.mem_conditionIds.2 ⟨c, hc, hid⟩) hk) hfk⟩
    · have hmem := Rule.mem_parentIds.2 ⟨c, hc, hid⟩
      exact ih id hid p hp fun k hk => hfg k (.inherited hmem hp hk)

/-! ### Evaluation -/

theorem rule_eq_ok_iff {id : String} {p : Rule} : b.rule id = .ok p ↔ b.rules.get? id = some p := by
  unfold rule
  split <;> simp_all

theorem condition_eq_ok_iff {id : String} {c : Condition} :
    b.condition id = .ok c ↔ b.conditions.get? id = some c := by
  unfold condition
  split <;> simp_all

theorem decides_conditionHolds {id : String} {c : Condition} (h : b.conditions.get? id = some c) :
    Decides (b.conditionHolds schema item id)
      (∃ c, b.conditions.get? id = some c ∧ c.holds schema item = true) := by
  rw [conditionHolds, condition_eq_ok_iff.2 h]
  exact (decides_ok (c.holds schema item)).congr
    (exists_some_and_iff h fun k => k.holds schema item = true).symm

/-- **Evaluation of a walkable rule decides whether the rule selects the item.** -/
theorem Walkable.decides_holdsFrom (h : b.Walkable fits path r) :
    Decides (b.holdsFrom schema item path r)
      (b.Selects (fun c => c.holds schema item = true) r) := by
  induction h with
  | @enter path inside r hin _ _ hconds hsaved _ ih =>
    rw [holdsFrom_eq, hin]
    refine (decides_anyM fun c hc => Decides.and ?_ ?_).congr selects_iff.symm
    · refine (decides_allM fun id hid => ?_).congr
        (forall_congr' fun id => imp_congr_left IdSet.mem_toList)
      obtain ⟨k, hk, -⟩ := hconds id (Rule.mem_conditionIds.2 ⟨c, hc, IdSet.mem_toList.1 hid⟩)
      exact decides_conditionHolds hk
    · refine (decides_allM fun id hid => ?_).congr
        (forall_congr' fun id => imp_congr_left IdSet.mem_toList)
      have hmem := Rule.mem_parentIds.2 ⟨c, hc, IdSet.mem_toList.1 hid⟩
      obtain ⟨p, hp⟩ := hsaved id hmem
      rw [rule_eq_ok_iff.2 hp]
      exact (ih id hmem p hp).congr (exists_some_and_iff hp _).symm

/-! ### Compilation -/

/-- A query is what a clause is compiled to, on a walk that is inside the rule. -/
def ClauseCompiled (b : Rulebook) (schema : Schema) (target : Target) (inside : VisitPath)
    (c : Clause) (q : Json) : Prop :=
  c.isEmpty = false ∧ ∃ conditions parents,
    List.Forall₂ (fun id q => b.compileCondition schema target id = .ok q) c.conditions.toList
      conditions ∧
    List.Forall₂ (fun id q => ∃ p, b.rules.get? id = some p ∧
      b.compileFrom schema target inside p = .ok q) c.parents.toList parents ∧
    q = target.all (conditions ++ parents)

theorem clauseQuery_eq_ok_iff {ruleId : String} {c : Clause} {index : Nat} {q : Json} :
    b.clauseQuery schema target inside ruleId c index = .ok q ↔
      b.ClauseCompiled schema target inside c q := by
  unfold clauseQuery ClauseCompiled
  cases c.isEmpty with
  | true => simp [throw, throwThe, MonadExceptOf.throw, bind, Except.bind]
  | false =>
    simp only [Bool.false_eq_true, if_false, true_and, bind_eq_ok_iff, mapM_eq_ok_iff,
      rule_eq_ok_iff]
    constructor
    · rintro ⟨cs, hcs, ps, hps, hq⟩
      exact ⟨cs, ps, hcs, hps, (Except.ok.inj hq).symm⟩
    · rintro ⟨cs, ps, hcs, hps, rfl⟩
      exact ⟨cs, hcs, ps, hps, rfl⟩

theorem compileFrom_eq_ok_iff {q : Json} :
    b.compileFrom schema target path r = .ok q ↔ r.clauses ≠ [] ∧ ∃ inside qs,
      path.enter r.id = .ok inside ∧
      List.Forall₂ (b.ClauseCompiled schema target inside) r.clauses qs ∧ q = target.any qs := by
  have hindex : ∀ inside qs, List.Forall₂ (fun (x : Clause × Nat) q =>
        b.clauseQuery schema target inside r.id x.1 x.2 = .ok q) r.clauses.zipIdx qs ↔
      List.Forall₂ (b.ClauseCompiled schema target inside) r.clauses qs := by
    intro inside qs
    simp only [clauseQuery_eq_ok_iff]
    rw [← List.forall₂_map_left_iff, List.zipIdx_map_fst]
  rw [compileFrom_eq]
  cases hne : r.clauses.isEmpty with
  | true =>
    have hnil : r.clauses = [] := List.isEmpty_iff.1 hne
    simp [throw, throwThe, MonadExceptOf.throw, bind, Except.bind, hnil]
  | false =>
    have hcons : r.clauses ≠ [] := by
      intro hnil
      rw [hnil] at hne
      cases hne
    simp only [Bool.false_eq_true, if_false, bind_eq_ok_iff, map_eq_ok_iff, mapM_eq_ok_iff, hindex]
    constructor
    · rintro ⟨inside, hin, qs, hqs, rfl⟩
      exact ⟨hcons, inside, qs, hin, hqs, rfl⟩
    · rintro ⟨-, inside, qs, hin, hqs, rfl⟩
      exact ⟨inside, hin, qs, hqs, rfl⟩

theorem compileCondition_eq_ok_iff {id : String} {q : Json} :
    b.compileCondition schema target id = .ok q ↔ ∃ c, b.conditions.get? id = some c ∧
      target.condition schema.layout (schema.resolve c.field) c = .ok q := by
  rw [compileCondition, bind_eq_ok_iff]
  exact exists_congr fun c => and_congr_left fun _ => condition_eq_ok_iff

/-- A condition can be written for the target. -/
def Compiles (schema : Schema) (target : Target) (c : Condition) : Prop :=
  ∃ q, target.condition schema.layout (schema.resolve c.field) c = .ok q

/-- **What is compiled is walkable.**  The recursion is on the rules that the walk is not inside of:
the parent is saved, so there are fewer of them from inside of it. -/
theorem walkable_of_inside {path inside : VisitPath} {r : Rule} {q : Json}
    (hin : path.enter r.id = .ok inside) (h : b.compileFrom schema target path r = .ok q) :
    b.Walkable (Compiles schema target) path r := by
  obtain ⟨hne, inside', qs, hin', hqs, -⟩ := compileFrom_eq_ok_iff.1 h
  rw [show inside' = inside from Except.ok.inj (hin'.symm.trans hin)] at hqs
  -- the queries of the clauses tell what was looked up for each of them
  have hparent : ∀ id ∈ r.parentIds, ∃ q p, b.rules.get? id = some p ∧
      b.compileFrom schema target inside p = .ok q := by
    intro id hid
    obtain ⟨c, hc, hidc⟩ := Rule.mem_parentIds.1 hid
    obtain ⟨_, -, cs, ps, -, hps, -⟩ := exists_of_forall₂ hqs hc
    exact exists_of_forall₂ hps (IdSet.mem_toList.2 hidc)
  refine .enter hin hne (fun c hc => ?_) (fun id hid => ?_) (fun id hid => ?_)
    fun id hid p hp => ?_
  · obtain ⟨_, hempty, -⟩ := exists_of_forall₂ hqs hc
    exact hempty
  · obtain ⟨c, hc, hidc⟩ := Rule.mem_conditionIds.1 hid
    obtain ⟨_, -, cs, ps, hcs, -⟩ := exists_of_forall₂ hqs hc
    obtain ⟨q, hq⟩ := exists_of_forall₂ hcs (IdSet.mem_toList.2 hidc)
    obtain ⟨k, hk, hkq⟩ := compileCondition_eq_ok_iff.1 hq
    exact ⟨k, hk, q, hkq⟩
  · obtain ⟨_, p, hp, -⟩ := hparent id hid
    exact ⟨p, hp⟩
  · obtain ⟨q, hq⟩ := hparent id hid
    have hpq := (exists_some_and_iff hp _).1 hq
    obtain ⟨-, deeper, -, hdeeper, -⟩ := compileFrom_eq_ok_iff.1 hpq
    exact walkable_of_inside hdeeper hpq
termination_by b.unvisited inside
decreasing_by exact unvisited_enter_lt hp hdeeper

theorem walkable_of_compileFrom {q : Json} (h : b.compileFrom schema target path r = .ok q) :
    b.Walkable (Compiles schema target) path r := by
  obtain ⟨-, inside, -, hin, -⟩ := compileFrom_eq_ok_iff.1 h
  exact walkable_of_inside hin h

/-- A walkable rule whose conditions can be written is compiled. -/
theorem Walkable.exists_compileFrom (h : b.Walkable (Compiles schema target) path r) :
    ∃ q, b.compileFrom schema target path r = .ok q := by
  induction h with
  | @enter path inside r hin hne hclauses hconds hsaved _ ih =>
    have hclause : ∀ c ∈ r.clauses, ∃ q, b.ClauseCompiled schema target inside c q := by
      intro c hc
      obtain ⟨cs, hcs⟩ : ∃ cs, List.Forall₂ (fun id q => b.compileCondition schema target id = .ok q)
          c.conditions.toList cs := by
        refine exists_forall₂ fun id hid => ?_
        obtain ⟨k, hk, q, hq⟩ := hconds id (Rule.mem_conditionIds.2 ⟨c, hc, IdSet.mem_toList.1 hid⟩)
        exact ⟨q, compileCondition_eq_ok_iff.2 ⟨k, hk, hq⟩⟩
      obtain ⟨ps, hps⟩ : ∃ ps, List.Forall₂ (fun id q => ∃ p, b.rules.get? id = some p ∧
          b.compileFrom schema target inside p = .ok q) c.parents.toList ps := by
        refine exists_forall₂ fun id hid => ?_
        have hmem := Rule.mem_parentIds.2 ⟨c, hc, IdSet.mem_toList.1 hid⟩
        obtain ⟨p, hp⟩ := hsaved id hmem
        obtain ⟨q, hq⟩ := ih id hmem p hp
        exact ⟨q, p, hp, hq⟩
      exact ⟨_, hclauses c hc, cs, ps, hcs, hps, rfl⟩
    obtain ⟨qs, hqs⟩ := exists_forall₂ hclause
    exact ⟨_, compileFrom_eq_ok_iff.2 ⟨hne, inside, qs, hin, hqs, rfl⟩⟩

/-! ### Running what was compiled -/

/-- Conjunctions and disjunctions that are written for the target mean what they say when they are
run on the document. -/
structure Faithful (target : Target) (run : Json → Matcher) (doc : Json) : Prop where
  /-- The query that everything satisfies. -/
  everything : Decides (run target.everything doc) True
  /-- A conjunction. -/
  all {qs : List Json} {ps : List Prop} (h : List.Forall₂ (fun p q => Decides (run q doc) p) ps qs) :
    Decides (run (target.all qs) doc) (∀ p ∈ ps, p)
  /-- A disjunction, which is never empty. -/
  any {qs : List Json} {ps : List Prop} (hne : ps ≠ [])
    (h : List.Forall₂ (fun p q => Decides (run q doc) p) ps qs) :
    Decides (run (target.any qs) doc) (∃ p ∈ ps, p)

/-- The query of a condition, if there is one, decides `f`. -/
def Answers (schema : Schema) (target : Target) (run : Json → Matcher) (doc : Json)
    (f : Condition → Prop) (c : Condition) : Prop :=
  ∀ q, target.condition schema.layout (schema.resolve c.field) c = .ok q →
    Decides (run q doc) (f c)

/-- **Running the query of a rule decides whether the rule selects the document.** -/
theorem Walkable.decides_compiled {run : Json → Matcher} {doc : Json}
    (hrun : Faithful target run doc) (h : b.Walkable (Answers schema target run doc f) path r)
    {q : Json} (hq : b.compileFrom schema target path r = .ok q) :
    Decides (run q doc) (b.Selects f r) := by
  induction h generalizing q with
  | @enter path inside r hin _ _ hconds hsaved _ ih =>
    obtain ⟨hne, inside', qs, hin', hqs, rfl⟩ := compileFrom_eq_ok_iff.1 hq
    obtain rfl : inside' = inside := Except.ok.inj (hin'.symm.trans hin)
    have hclauses : List.Forall₂ (fun c q => Decides (run q doc) (b.ClauseMet f c)) r.clauses qs := by
      refine forall₂_imp_mem hqs fun c hc q hq => ?_
      obtain ⟨-, cs, ps, hcs, hps, rfl⟩ := hq
      have hcs' := forall₂_imp_mem hcs fun id hid q hq => by
        obtain ⟨k, hk, hkq⟩ := compileCondition_eq_ok_iff.1 hq
        have hmem := Rule.mem_conditionIds.2 ⟨c, hc, IdSet.mem_toList.1 hid⟩
        have hans := (exists_some_and_iff hk _).1 (hconds id hmem)
        exact (hans q hkq).congr (exists_some_and_iff hk f).symm
      have hps' := forall₂_imp_mem hps fun id hid q hq => by
        obtain ⟨p, hp, hpq⟩ := hq
        have hmem := Rule.mem_parentIds.2 ⟨c, hc, IdSet.mem_toList.1 hid⟩
        exact (ih id hmem p hp hpq).congr (exists_some_and_iff hp (b.Selects f)).symm
      have hall := hrun.all (List.rel_append (List.forall₂_map_left_iff.2 hcs')
        (List.forall₂_map_left_iff.2 hps'))
      refine hall.congr ?_
      simp only [List.forall_mem_append, List.forall_mem_map, IdSet.mem_toList, ClauseMet]
    have hmet : r.clauses.map (b.ClauseMet f) ≠ [] := fun hnil => hne (List.map_eq_nil_iff.1 hnil)
    refine (hrun.any hmet (List.forall₂_map_left_iff.2 hclauses)).congr ?_
    simp only [List.mem_map, exists_exists_and_eq_and, selects_iff]

end Rulebook

end Newswire
