import Newswire.Proofs.Desk.Vocabulary
import Newswire.Proofs.Rulebook.Lineage

/-!
# How far a change reaches

When a condition or a rule is saved, a desk forgets the verdicts on the rules that the index of
users gives, and no others.  That is enough only if nothing else about the other rules changes.

* `Rulebook.Spares.compile_eq` : what a change spares is compiled as before, whether or not
  compilation succeeds.
* `Desk.Unmoved` : the same rule is saved, it selects the same items, and it has the same queries.
* `Desk.unmoved_of_not_user` : **whatever happened to a new desk, saving a condition moves only its
  direct and indirect users, and saving a rule only the rule and its direct and indirect users**, as
  the index tells them afterwards.
-/

namespace Newswire

open Rulebook

namespace Rulebook

variable {b b' : Rulebook} {K : String → Prop} {schema : Schema} {target : Target}
  {path inside : VisitPath} {r : Rule} {id ruleId : String}

/-! ### What a query depends on -/

theorem compileCondition_congr (h : b'.conditions.get? id = b.conditions.get? id) :
    b'.compileCondition schema target id = b.compileCondition schema target id := by
  unfold compileCondition condition
  rw [h]

/-- The query of a clause goes by its conditions, its parents and their queries. -/
theorem clauseQuery_congr {c : Clause} {index : Nat}
    (hconditions : ∀ k ∈ c.conditions, b'.conditions.get? k = b.conditions.get? k)
    (hrules : ∀ k ∈ c.parents, b'.rules.get? k = b.rules.get? k)
    (hqueries : ∀ k ∈ c.parents, ∀ p, b.rules.get? k = some p →
      b'.compileFrom schema target inside p = b.compileFrom schema target inside p) :
    b'.clauseQuery schema target inside ruleId c index =
      b.clauseQuery schema target inside ruleId c index := by
  have hparent : ∀ k ∈ c.parents.toList,
      (do b'.compileFrom schema target inside (← b'.rule k)) =
        (do b.compileFrom schema target inside (← b.rule k)) := by
    intro k hk
    have hk := IdSet.mem_toList.1 hk
    unfold rule
    rw [hrules k hk]
    cases hp : b.rules.get? k with
    | none => rfl
    | some p => exact hqueries k hk p hp
  unfold clauseQuery
  rw [mapM_congr_mem fun k hk => compileCondition_congr (hconditions k (IdSet.mem_toList.1 hk)),
    mapM_congr_mem hparent]

/-- **What a change spares is compiled as before**: the walk comes only to what is spared. -/
theorem Spares.compileFrom_congr (hs : Spares b b' K)
    (hr : ∃ id, K id ∧ b.rules.get? id = some r) :
    b'.compileFrom schema target path r = b.compileFrom schema target path r := by
  induction path, r using b.walk_induction with
  | step path r ih =>
    obtain ⟨id, hK, hr⟩ := hr
    rw [compileFrom_eq, compileFrom_eq]
    cases r.clauses.isEmpty with
    | true => exact bind_congr_ok fun _ h => nomatch h
    | false =>
      simp only [Bool.false_eq_true, if_false]
      refine bind_congr_ok fun inside hin => ?_
      refine congrArg (target.any <$> ·) (mapM_congr_mem fun ⟨c, index⟩ hmem => ?_)
      have hc : c ∈ r.clauses := List.fst_mem_of_mem_zipIdx hmem
      have hparents : ∀ k ∈ c.parents, k ∈ r.parentIds :=
        fun k hk => Rule.mem_parentIds.2 ⟨c, hc, hk⟩
      refine clauseQuery_congr (fun k hk => ?_) (fun k hk => ?_) fun k hk p hp => ?_
      · exact hs.conditions hK hr k (Rule.mem_conditionIds.2 ⟨c, hc, hk⟩)
      · exact hs.rules (hs.parents hK hr k (hparents k hk))
      · exact ih inside p hin ⟨k, hparents k hk, hp⟩ ⟨k, hs.parents hK hr k (hparents k hk), hp⟩

theorem Spares.compile_eq (hs : Spares b b' K) (hK : K id) (hr : b.rules.get? id = some r) :
    b'.compile schema target (some r) = b.compile schema target (some r) :=
  hs.compileFrom_congr ⟨id, hK, hr⟩

end Rulebook

namespace Dependents

variable {d : Dependents}

/-! ### Where no rule names a parent -/

theorem usersOfRule_eq_empty (h : d.ofRule.isEmpty = true) (id : String) :
    d.usersOfRule id true = ∅ := by
  refine IdSet.ext fun k => iff_of_false (fun hk => ?_) (IdSet.not_mem_empty k)
  obtain ⟨-, hleads⟩ := UserTable.mem_closure_iff.1 hk
  obtain ⟨a, hedge, -⟩ := Relation.TransGen.head'_iff.1 hleads
  exact UserTable.not_mem_users_of_isEmpty h hedge

theorem usersOfCondition_eq_direct (h : d.ofRule.isEmpty = true) (id : String) :
    d.usersOfCondition id true = d.usersOfCondition id false := by
  refine IdSet.ext fun k => mem_usersOfCondition_iff.trans ⟨?_, fun hk => ⟨k, hk, .refl⟩⟩
  rintro ⟨u, hu, hleads⟩
  rcases Relation.ReflTransGen.cases_head hleads with rfl | ⟨a, hedge, -⟩
  · exact hu
  · exact absurd hedge (UserTable.not_mem_users_of_isEmpty h)

end Dependents

namespace Desk

variable {d d' : Desk} {K : String → Prop} {id : String}

/-! ### What a change leaves alone -/

/-- From `d` to `d'` nothing changes about the rule that is saved as `id`. -/
structure Unmoved (d d' : Desk) (id : String) : Prop where
  /-- The same rule is saved, or none. -/
  saved : d'.book.rules.get? id = d.book.rules.get? id
  /-- There is a verdict on every item, and it is the same. -/
  verdict : ∀ r, d.book.rules.get? id = some r → ∀ item, ∃ v,
    d.book.holds d.schema item (some r) = .ok v ∧ d'.book.holds d'.schema item (some r) = .ok v
  /-- The store query is the same, or there is none for the same reason. -/
  storeQuery : ∀ r, d.book.rules.get? id = some r → d'.storeQuery (some r) = d.storeQuery (some r)
  /-- The search query is, too. -/
  searchQuery : ∀ r, d.book.rules.get? id = some r →
    d'.searchQuery (some r) = d.searchQuery (some r)

/-- What a change of the rulebook spares is not moved. -/
theorem unmoved_of_spares (hb : d.book.WellFormed) (hb' : d'.book.WellFormed)
    (hschema : d'.schema = d.schema) (hs : Spares d.book d'.book K) (hK : K id) :
    Unmoved d d' id := by
  refine ⟨hs.rules hK, fun r hr item => ?_, fun r hr => ?_, fun r hr => ?_⟩
  · obtain ⟨v, hv, -⟩ := hb.decides_holds hr d.schema item
    exact ⟨v, hv, hschema ▸ (hb.holds_eq hb' hs hK hr d.schema item).trans hv⟩
  · unfold Desk.storeQuery
    rw [hschema, hs.compile_eq hK hr]
  · unfold Desk.searchQuery
    rw [hschema, hs.compile_eq hK hr]

theorem unmoved_saveCondition (hb : d.book.Sound) {c : Condition} (h : d.saveCondition c = .ok d')
    (hid : id ∉ d'.book.dependents.usersOfCondition c.id true) : Unmoved d d' id := by
  obtain ⟨book, hbook, -, rfl⟩ := saveCondition_eq_ok_iff.1 h
  exact unmoved_of_spares hb.toWellFormed (hb.saveCondition hbook).toWellFormed rfl
    (hb.spares_saveCondition hbook) hid

theorem unmoved_saveRule (hb : d.book.Sound) {now : Timestamp} {r saved : Rule}
    (h : d.saveRule now r = .ok (saved, d')) (hne : id ≠ r.id)
    (hid : id ∉ d'.book.dependents.usersOfRule r.id true) : Unmoved d d' id := by
  obtain ⟨book, hbook, rfl⟩ := saveRule_eq_ok_iff.1 h
  obtain ⟨-, -, hsaved, -⟩ := saveRuleChecked_eq_ok_iff.1 hbook
  have hsame : saved.id = r.id := hsaved ▸ id_nextVersion _
  refine unmoved_of_spares hb.toWellFormed (hb.saveRuleChecked hbook).toWellFormed rfl
    (hb.spares_saveRuleChecked hbook) fun hconcerned => ?_
  rw [hsame] at hconcerned
  exact (IdSet.mem_insert.1 hconcerned).elim hne hid

/-- **Whatever happened to a new desk, a change reaches no farther than the index of users says.**
A condition that is saved moves no saved rule but its direct and indirect users, and a rule that is
saved moves none but itself and its direct and indirect users, both as the index gives them after
the change. -/
theorem unmoved_of_not_user {schema : Schema} {cache : CacheSettings} {events : List Event}
    (hd : d = (Desk.new schema cache).afterEvents events) :
    (∀ c d', d.saveCondition c = .ok d' →
      ∀ id, id ∉ d'.book.dependents.usersOfCondition c.id true → Unmoved d d' id) ∧
    ∀ now r saved d', d.saveRule now r = .ok (saved, d') →
      ∀ id, id ≠ r.id → id ∉ d'.book.dependents.usersOfRule r.id true → Unmoved d d' id := by
  have horderly : d.Orderly := hd ▸ orderly_afterEvents (orderly_new schema cache) events
  constructor
  · intro c d' h id hid
    exact unmoved_saveCondition horderly.1 h hid
  · intro now r saved d' h id hne hid
    exact unmoved_saveRule horderly.1 h hne hid

/-- One rule is on floods and one on storms. -/
def newsRun : List Event :=
  [.request (.change (.saveCondition (.ofParts "flood" "headline" .like "flood"))),
    .request (.change (.saveCondition (.ofParts "storm" "headline" .like "storm"))),
    .request (.change (.saveRule default
      (.new default "floods" "floods" [⟨.ofList ["flood"], ∅⟩]))),
    .request (.change (.saveRule default
      (.new default "storms" "storms" [⟨.ofList ["storm"], ∅⟩])))]

/-- The rule on floods, with another condition. -/
def widerRule : Rule :=
  .new default "floods" "floods" [⟨.ofList ["flood"], ∅⟩, ⟨.ofList ["storm"], ∅⟩]

/-- The rule on storms stays as it is when the condition on floods is changed, and when the rule on
floods is. -/
theorem unmoved_of_not_user_newsRun :
    ∃ d, d = (Desk.new (.ofLayout {}) {}).afterEvents newsRun ∧
      (∃ r, d.book.rules.get? "storms" = some r) ∧
      (∃ d', d.saveCondition (.ofParts "flood" "headline" .like "deluge") = .ok d' ∧
        Unmoved d d' "storms") ∧
      ∃ saved d', d.saveRule default widerRule = .ok (saved, d') ∧ Unmoved d d' "storms" := by
  obtain ⟨hcondition, hrule⟩ :=
    unmoved_of_not_user (rfl : (Desk.new (.ofLayout {}) {}).afterEvents newsRun = _)
  have hsaved : (((Desk.new (.ofLayout {}) {}).afterEvents newsRun).book.rules.get?
      "storms").isSome = true := by decide +kernel
  refine ⟨_, rfl, Option.isSome_iff_exists.1 hsaved, ?_, ?_⟩
  · obtain ⟨d', hd', hrules, hid⟩ : ∃ d' ∈ (((Desk.new (.ofLayout {}) {}).afterEvents
          newsRun).saveCondition (.ofParts "flood" "headline" .like "deluge")).toOption,
        d'.book.dependents.ofRule.isEmpty = true ∧
          "storms" ∉ d'.book.dependents.usersOfCondition "flood" false := by decide +kernel
    have hsave := eq_ok_of_toOption hd'
    rw [← Dependents.usersOfCondition_eq_direct hrules] at hid
    exact ⟨d', hsave, hcondition _ d' hsave "storms" hid⟩
  · obtain ⟨⟨saved, d'⟩, hd', hrules⟩ : ∃ x ∈ (((Desk.new (.ofLayout {}) {}).afterEvents
          newsRun).saveRule default widerRule).toOption,
        x.2.book.dependents.ofRule.isEmpty = true := by decide +kernel
    have hsave := eq_ok_of_toOption hd'
    refine ⟨saved, d', hsave, hrule default widerRule saved d' hsave "storms" (by decide) ?_⟩
    rw [Dependents.usersOfRule_eq_empty hrules]
    exact IdSet.not_mem_empty "storms"

end Desk

end Newswire
