import Newswire.Proofs.Rulebook.Upkeep

/-!
# The index is the one that the rules make

The index of users is kept up to date edit by edit, and replacing a rule strikes and enters only
what differs.  Nothing is lost and nothing is left over in this way.

* `UserTable.Compact` : no identifier is listed without a user.  Such tables are equal when they list
  the same users (`UserTable.Compact.ext`).
* `Dependents.tableOf_eq` : an exact table without idle entries is the one built from scratch.
* `Rulebook.Edit`, `Rulebook.edited`, `Rulebook.afterEdits` : edits, and what comes of many.
* `Rulebook.exactlyIndexed_afterEdits` : **after any edits of a new rulebook, whether they succeeded
  or failed, the index is the one built from the saved rules**, whatever their order.
-/

namespace Newswire

namespace UserTable

/-- No identifier is listed without a user. -/
def Compact (t : UserTable) : Prop := ∀ id s, t.get? id = some s → ∃ u, u ∈ s

variable {s t : UserTable} {id user : String}

theorem Compact.empty : Compact ∅ := fun _ _ h => nomatch h

theorem not_mem_users_empty : user ∉ users ∅ id := IdSet.not_mem_empty user

theorem Compact.addUser (h : t.Compact) (id user : String) : (t.addUser id user).Compact := by
  intro k s hs
  rcases Table.get?_insert_eq_some_iff.1 hs with ⟨-, rfl⟩ | ⟨-, hs⟩
  · exact ⟨user, IdSet.mem_insert.2 (Or.inl rfl)⟩
  · exact h k s hs

theorem Compact.removeUser (h : t.Compact) (id user : String) : (t.removeUser id user).Compact := by
  unfold UserTable.removeUser
  cases hid : t.get? id with
  | none => exact h
  | some old =>
    intro k s hs
    by_cases hempty : (old.erase user).isEmpty
    · simp only [hempty, if_true, Table.get?_erase_eq_some_iff] at hs
      exact h k s hs.2
    · simp only [hempty, Bool.false_eq_true, if_false, Table.get?_insert_eq_some_iff] at hs
      rcases hs with ⟨-, rfl⟩ | ⟨-, hs⟩
      · simpa [IdSet.isEmpty_iff] using hempty
      · exact h k s hs

theorem Compact.get?_eq_none_iff (h : t.Compact) : t.get? id = none ↔ ∀ u, u ∉ t.users id := by
  cases hid : t.get? id with
  | none => simp [users, hid]
  | some s =>
    obtain ⟨u, hu⟩ := h id s hid
    simp only [reduceCtorEq, users, hid, Option.getD_some, false_iff, not_forall, not_not]
    exact ⟨u, hu⟩

/-- **Tables without idle entries are determined by the users that they list.** -/
theorem Compact.ext (hs : s.Compact) (ht : t.Compact)
    (h : ∀ id u, u ∈ s.users id ↔ u ∈ t.users id) : s = t := by
  refine Table.ext fun id => ?_
  have husers : s.users id = t.users id := IdSet.ext (h id)
  have hnone : s.get? id = none ↔ t.get? id = none := by
    rw [hs.get?_eq_none_iff, ht.get?_eq_none_iff, husers]
  cases hsid : s.get? id with
  | none => exact (hnone.1 hsid).symm
  | some us =>
    cases htid : t.get? id with
    | none => exact absurd (hnone.2 htid) (by simp [hsid])
    | some ut => simpa [users, hsid, htid] using husers

theorem Compact.isEmpty_iff (h : t.Compact) : t.isEmpty = true ↔ ∀ id u, u ∉ t.users id := by
  constructor
  · exact fun hempty id u => not_mem_users_of_isEmpty hempty
  · intro hno
    obtain rfl : t = ∅ := h.ext .empty fun id u => iff_of_false (hno id u) not_mem_users_empty
    rfl

end UserTable

namespace Dependents

variable {t : UserTable} {d : Dependents} {id u : String}

theorem compact_addAll (h : t.Compact) (ids : List String) (user : String) :
    (addAll t ids user).Compact := by
  unfold addAll
  induction ids generalizing t with
  | nil => exact h
  | cons id ids ih => exact ih (h.addUser id user)

theorem compact_removeAll (h : t.Compact) (ids : List String) (user : String) :
    (removeAll t ids user).Compact := by
  unfold removeAll
  induction ids generalizing t with
  | nil => exact h
  | cons id ids ih => exact ih (h.removeUser id user)

/-- Nothing is listed without a user. -/
structure Compact (d : Dependents) : Prop where
  /-- No condition is. -/
  ofCondition : d.ofCondition.Compact
  /-- No rule is. -/
  ofRule : d.ofRule.Compact

theorem Compact.register (h : d.Compact) (r : Rule) : (d.register r).Compact :=
  ⟨compact_addAll h.ofCondition _ _, compact_addAll h.ofRule _ _⟩

theorem Compact.unregister (h : d.Compact) (r : Rule) : (d.unregister r).Compact :=
  ⟨compact_removeAll h.ofCondition _ _, compact_removeAll h.ofRule _ _⟩

theorem Compact.replace (h : d.Compact) (old new : Rule) : (d.replace old new).Compact :=
  ⟨compact_addAll (compact_removeAll h.ofCondition _ _) _ _,
    compact_addAll (compact_removeAll h.ofRule _ _) _ _⟩

/-! ### An index from scratch -/

/-- The table that is built from scratch, where `names` says what a rule names. -/
def tableOf (names : Rule → IdSet) (rules : List Rule) : UserTable :=
  rules.foldl (fun t r => addAll t (names r).toList r.id) ∅

variable {names : Rule → IdSet} {rules : List Rule}

theorem foldl_register (d : Dependents) (rules : List Rule) : rules.foldl register d =
    ⟨rules.foldl (fun t r => addAll t r.conditionIds.toList r.id) d.ofCondition,
      rules.foldl (fun t r => addAll t r.parentIds.toList r.id) d.ofRule⟩ := by
  induction rules generalizing d with
  | nil => rfl
  | cons r rules ih => exact ih (d.register r)

theorem ofRules_eq (rules : List Rule) :
    ofRules rules = ⟨tableOf Rule.conditionIds rules, tableOf Rule.parentIds rules⟩ :=
  foldl_register ∅ rules

theorem compact_tableOf (names : Rule → IdSet) (rules : List Rule) :
    (tableOf names rules).Compact := by
  unfold tableOf
  suffices h : ∀ t : UserTable, t.Compact →
      (rules.foldl (fun t r => addAll t (names r).toList r.id) t).Compact from h ∅ .empty
  induction rules with
  | nil => exact fun t ht => ht
  | cons r rules ih => exact fun t ht => ih _ (compact_addAll ht _ _)

/-- The users of an identifier are the rules that name it, whatever is entered besides. -/
theorem mem_users_foldl_addAll :
    u ∈ (rules.foldl (fun t r => addAll t (names r).toList r.id) t).users id ↔
      (∃ r ∈ rules, id ∈ names r ∧ r.id = u) ∨ u ∈ t.users id := by
  induction rules generalizing t with
  | nil => simp
  | cons r rules ih =>
    rw [List.foldl_cons, ih, mem_users_addAll, IdSet.mem_toList, List.exists_mem_cons_iff,
      eq_comm (a := u)]
    exact or_assoc.symm.trans (or_congr_left or_comm)

theorem mem_users_tableOf :
    u ∈ (tableOf names rules).users id ↔ ∃ r ∈ rules, id ∈ names r ∧ r.id = u := by
  rw [tableOf, mem_users_foldl_addAll, or_iff_left UserTable.not_mem_users_empty]

/-- **A table that lists exactly the users, and nothing without a user, is the one that is built from
scratch**, in whatever order the rules are entered. -/
theorem tableOf_eq {saved : Table Rule} (hid : ∀ {k r}, saved.get? k = some r → r.id = k)
    (hrules : ∀ r, r ∈ rules ↔ ∃ k, saved.get? k = some r) (hlists : t.Lists saved names)
    (hcompact : t.Compact) : tableOf names rules = t := by
  refine (compact_tableOf names rules).ext hcompact fun k u => ?_
  rw [mem_users_tableOf, hlists k u]
  constructor
  · rintro ⟨r, hr, hk, rfl⟩
    obtain ⟨id, hr⟩ := (hrules r).1 hr
    exact ⟨r, (hid hr).symm ▸ hr, hk⟩
  · rintro ⟨r, hr, hk⟩
    exact ⟨r, (hrules r).2 ⟨u, hr⟩, hk, hid hr⟩

/-- The index that is built from scratch goes by which rules there are, not by their order. -/
theorem ofRules_congr {xs ys : List Rule} (h : ∀ r, r ∈ xs ↔ r ∈ ys) : ofRules xs = ofRules ys := by
  have htable : ∀ names : Rule → IdSet, tableOf names xs = tableOf names ys := fun names =>
    (compact_tableOf names xs).ext (compact_tableOf names ys) fun id u => by
      simp only [mem_users_tableOf, h]
  rw [ofRules_eq, ofRules_eq, htable, htable]

end Dependents

namespace Rulebook

/-! ### Edits -/

/-- An edit of the rulebook. -/
inductive Edit where
  /-- Save a condition. -/
  | saveCondition (c : Condition)
  /-- Save a rule at a given time, if it passes a further check. -/
  | saveRule (now : Timestamp) (extra : Rule → Except RuleError Unit) (r : Rule)
  /-- Delete a rule, which others than rules use. -/
  | deleteRule (others : List Referent) (id : String)
  /-- Delete a condition. -/
  | deleteCondition (id : String)

/-- Carry out an edit. -/
def edit (b : Rulebook) : Edit → Except RuleError Rulebook
  | .saveCondition c => b.saveCondition c
  | .saveRule now extra r => do
    let (_, b') ← b.saveRuleChecked now extra r
    return b'
  | .deleteRule others id => do
    let (_, b') ← b.deleteRule others id
    return b'
  | .deleteCondition id => do
    let (_, b') ← b.deleteCondition id
    return b'

/-- The rulebook after an edit, or as it was when the edit fails. -/
def edited (b : Rulebook) (e : Edit) : Rulebook :=
  match b.edit e with
  | .ok b' => b'
  | .error _ => b

/-- The rulebook after a run of edits. -/
def afterEdits (b : Rulebook) (edits : List Edit) : Rulebook := edits.foldl edited b

variable {b b' : Rulebook}

/-- What every edit keeps: the index lists exactly the users, and nothing without a user. -/
structure Indexed (b : Rulebook) : Prop extends Sound b where
  /-- Nothing is listed without a user. -/
  compact : b.dependents.Compact

theorem Indexed.empty : Indexed ∅ := ⟨.empty, .empty, .empty⟩

theorem compact_putRule (h : b.dependents.Compact) (previous : Option Rule) (r : Rule) :
    (b.putRule previous r).dependents.Compact := by
  cases previous with
  | none => exact h.register r
  | some old => exact h.replace old r

/-- A successful edit keeps the index exact. -/
theorem Indexed.edit (hb : b.Indexed) {e : Edit} (h : b.edit e = .ok b') : b'.Indexed := by
  cases e with
  | saveCondition c =>
    have hsound := hb.toSound.saveCondition h
    obtain ⟨-, rfl⟩ := saveCondition_eq_ok_iff.1 h
    exact ⟨hsound, hb.compact⟩
  | saveRule now extra r =>
    obtain ⟨⟨saved, b'⟩, hsave, ⟨⟩⟩ := bind_eq_ok_iff.1 h
    refine ⟨hb.toSound.saveRuleChecked hsave, ?_⟩
    obtain ⟨-, -, -, rfl⟩ := saveRuleChecked_eq_ok_iff.1 hsave
    exact compact_putRule hb.compact _ saved
  | deleteRule others id =>
    obtain ⟨⟨removed, b'⟩, hdelete, ⟨⟩⟩ := bind_eq_ok_iff.1 h
    refine ⟨hb.toSound.deleteRule hdelete, ?_⟩
    obtain ⟨-, -, -, rfl⟩ := deleteRule_eq_ok_iff.1 hdelete
    exact hb.compact.unregister removed
  | deleteCondition id =>
    obtain ⟨⟨removed, b'⟩, hdelete, ⟨⟩⟩ := bind_eq_ok_iff.1 h
    refine ⟨hb.toSound.deleteCondition hdelete, ?_⟩
    obtain ⟨-, -, rfl⟩ := deleteCondition_eq_ok_iff.1 hdelete
    exact hb.compact

/-- No edit, whether it succeeds or fails, makes the index inexact. -/
theorem Indexed.edited (hb : b.Indexed) (e : Edit) : (b.edited e).Indexed := by
  unfold Rulebook.edited
  cases h : b.edit e with
  | ok b' => exact hb.edit h
  | error _ => exact hb

theorem Indexed.afterEdits (hb : b.Indexed) (edits : List Edit) : (b.afterEdits edits).Indexed := by
  unfold Rulebook.afterEdits
  induction edits generalizing b with
  | nil => exact hb
  | cons e edits ih => exact ih (hb.edited e)

/-! ### The exact index -/

/-- The index of the rulebook is the one that its rules make. -/
structure ExactlyIndexed (b : Rulebook) : Prop where
  /-- The users of a condition are the saved rules with a clause that names it. -/
  condition_users : ∀ id u, u ∈ b.dependents.usersOfCondition id false ↔
    ∃ r, b.rules.get? u = some r ∧ ∃ c ∈ r.clauses, id ∈ c.conditions
  /-- The users of a rule are the saved rules with a clause that names it as a parent. -/
  rule_users : ∀ id u, u ∈ b.dependents.usersOfRule id false ↔
    ∃ r, b.rules.get? u = some r ∧ ∃ c ∈ r.clauses, id ∈ c.parents
  /-- Entering the saved rules one by one, in any order, gives the same index. -/
  rebuilt : ∀ rules : List Rule, (∀ r, r ∈ rules ↔ ∃ id, b.rules.get? id = some r) →
    Dependents.ofRules rules = b.dependents
  /-- Nothing is listed without a user. -/
  compact : b.dependents.Compact
  /-- Nothing is listed at all exactly if no rule is saved. -/
  isEmpty_iff : b.dependents.isEmpty = true ↔ ∀ id, b.rules.get? id = none

theorem Indexed.exactlyIndexed (hb : b.Indexed) : b.ExactlyIndexed where
  condition_users id u := by
    simp only [← Rule.mem_conditionIds]
    exact hb.listsConditions id u
  rule_users id u := by
    simp only [← Rule.mem_parentIds]
    exact hb.listsRules id u
  rebuilt rules hrules := by
    rw [Dependents.ofRules_eq,
      Dependents.tableOf_eq hb.id_eq hrules hb.listsConditions hb.compact.ofCondition,
      Dependents.tableOf_eq hb.id_eq hrules hb.listsRules hb.compact.ofRule]
  compact := hb.compact
  isEmpty_iff := by
    rw [Dependents.isEmpty, Bool.and_eq_true, hb.compact.ofCondition.isEmpty_iff,
      hb.compact.ofRule.isEmpty_iff]
    constructor
    · rintro ⟨hconditions, hparents⟩ id
      refine Option.eq_none_iff_forall_ne_some.2 fun r hr => ?_
      -- some clause of a saved rule demands something, so the rule is a user of it
      have horder := hb.inOrder hr
      obtain ⟨c, hc⟩ := List.exists_mem_of_ne_nil _ horder.clauses_ne
      have hnocondition : c.conditions.isEmpty = true := IdSet.isEmpty_iff.2 fun k hk =>
        hconditions k id ((hb.listsConditions k id).2 ⟨r, hr, Rule.mem_conditionIds.2 ⟨c, hc, hk⟩⟩)
      have hnoparent : c.parents.isEmpty = true := IdSet.isEmpty_iff.2 fun k hk =>
        hparents k id ((hb.listsRules k id).2 ⟨r, hr, Rule.mem_parentIds.2 ⟨c, hc, hk⟩⟩)
      have hdemands := horder.clause_ne c hc
      simp [Clause.isEmpty, hnocondition, hnoparent] at hdemands
    · intro hnone
      refine ⟨fun k u hu => ?_, fun k u hu => ?_⟩
      · obtain ⟨r, hr, -⟩ := (hb.listsConditions k u).1 hu
        cases (hnone u).symm.trans hr
      · obtain ⟨r, hr, -⟩ := (hb.listsRules k u).1 hu
        cases (hnone u).symm.trans hr

/-- **After any edits of a new rulebook, whether they succeeded or failed, the index is exact**: it
lists the saved rules that name something and no others, and it is equal to the index that is built
from the saved rules. -/
theorem exactlyIndexed_afterEdits (edits : List Edit) :
    ((∅ : Rulebook).afterEdits edits).ExactlyIndexed :=
  (Indexed.empty.afterEdits edits).exactlyIndexed

end Rulebook

end Newswire
