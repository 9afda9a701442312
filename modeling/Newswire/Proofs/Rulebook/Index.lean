import Mathlib.Logic.Relation
import Mathlib.Tactic.Tauto
import Newswire.Rulebook.Dependents

/-!
# What the index of users holds

`Dependents` is kept up to date by small changes and followed by a search with a queue.  Both are
described by membership alone:

* `Dependents.mem_users_addAll`, `Dependents.mem_users_removeAll` : entering and striking a user.
* `UserTable.Lists` : the index lists exactly the rules that name an identifier.  It is kept when a
  rule is entered, struck or replaced (`UserTable.Lists.addAll`, `UserTable.Lists.removeAll`,
  `UserTable.Lists.change`).
* `UserTable.Search` : searches for the users of users, in whatever order; what one step does, and
  `UserTable.Search.OnCourse`, what holds at all times.
* `UserTable.mem_closure_iff` : **the search finds exactly the direct and indirect users** other
  than the identifier itself, on any table, also one with circles.
* `Dependents.mem_usersOfCondition_iff`, `Dependents.mem_insert_usersOfRule_iff` : what is concerned
  when a condition or a rule changes.
-/

namespace Newswire

namespace UserTable

variable {t : UserTable} {id user k u : String}

theorem not_mem_users_of_isEmpty (h : t.isEmpty = true) : user ∉ t.users id := by
  have hentries : t.entries = [] := List.isEmpty_iff.1 h
  rw [users, Table.get?, hentries, List.lookup_nil]
  exact IdSet.not_mem_empty user

/-! ### Entering and striking users -/

theorem users_insert (t : UserTable) (id k : String) (s : IdSet) :
    users (t.insert id s) k = if k = id then s else users t k := by
  rw [users, Table.get?_insert]
  by_cases hk : k = id
  · simp [hk]
  · simp [hk, users]

theorem mem_users_addUser :
    u ∈ users (addUser t id user) k ↔ (k = id ∧ u = user) ∨ u ∈ users t k := by
  rw [addUser, users_insert]
  by_cases hk : k = id
  · simp [hk, IdSet.mem_insert]
  · simp [hk]

theorem mem_users_removeUser :
    u ∈ users (removeUser t id user) k ↔ u ∈ users t k ∧ ¬(k = id ∧ u = user) := by
  unfold removeUser
  cases hid : t.get? id with
  | none =>
    by_cases hk : k = id
    · simp [hk, users, hid]
    · simp [hk]
  | some s =>
    have hs : users t id = s := by simp [users, hid]
    by_cases hempty : (s.erase user).isEmpty
    · -- the last user goes, and the identifier with it
      have hnone := IdSet.isEmpty_iff.1 hempty u
      rw [IdSet.mem_erase, not_and_or, not_not] at hnone
      simp only [hempty, if_true, users, Table.get?_erase]
      by_cases hk : k = id
      · subst hk
        simp only [if_true, hid, Option.getD_some, Option.getD_none, true_and]
        refine iff_of_false (IdSet.not_mem_empty u) fun h => ?_
        exact hnone.elim h.2 fun hu => hu h.1
      · simp [hk]
    · simp only [hempty]
      rw [if_neg Bool.false_ne_true, users_insert]
      by_cases hk : k = id
      · subst hk
        simp [hs, IdSet.mem_erase, and_comm]
      · simp [hk]

end UserTable

namespace Dependents

open UserTable

variable {t : UserTable} {user k u : String}

theorem mem_users_addAll {ids : List String} :
    u ∈ (addAll t ids user).users k ↔ (k ∈ ids ∧ u = user) ∨ u ∈ t.users k := by
  unfold addAll
  induction ids generalizing t with
  | nil => simp
  | cons id ids ih =>
    rw [List.foldl_cons, ih, mem_users_addUser, List.mem_cons]
    tauto

theorem mem_users_removeAll {ids : List String} :
    u ∈ (removeAll t ids user).users k ↔ u ∈ t.users k ∧ ¬(k ∈ ids ∧ u = user) := by
  unfold removeAll
  induction ids generalizing t with
  | nil => simp
  | cons id ids ih =>
    rw [List.foldl_cons, ih, mem_users_removeUser, List.mem_cons]
    tauto

theorem mem_difference {s t : IdSet} : k ∈ difference s t ↔ k ∈ s ∧ k ∉ t := by
  simp [difference, IdSet.mem_toList]

end Dependents

namespace UserTable

/-! ### An exact index -/

/-- The users of an identifier are the saved rules that name it, where `names` says what a rule
names. -/
def Lists (t : UserTable) (rules : Table Rule) (names : Rule → IdSet) : Prop :=
  ∀ k u, u ∈ t.users k ↔ ∃ r, rules.get? u = some r ∧ k ∈ names r

variable {t : UserTable} {rules : Table Rule} {names : Rule → IdSet}

theorem Lists.empty : Lists ∅ ∅ names := by
  intro k u
  simp [users]

/-- Entering what a rule names keeps the index exact when the rule is new. -/
theorem Lists.addAll (h : Lists t rules names) {r : Rule} (hnew : rules.get? r.id = none) :
    Lists (Dependents.addAll t (names r).toList r.id) (rules.insert r.id r) names := by
  intro k u
  rw [Dependents.mem_users_addAll, h k u, IdSet.mem_toList, Table.get?_insert]
  by_cases hu : u = r.id
  · subst hu
    simp [hnew]
  · simp [hu]

/-- Striking what a rule names keeps the index exact when the rule goes. -/
theorem Lists.removeAll (h : Lists t rules names) {id : String} {r : Rule}
    (hr : rules.get? id = some r) (hid : r.id = id) :
    Lists (Dependents.removeAll t (names r).toList r.id) (rules.erase id) names := by
  intro k u
  rw [Dependents.mem_users_removeAll, h k u, IdSet.mem_toList, Table.get?_erase, hid]
  by_cases hu : u = id
  · subst hu
    simp [hr]
  · simp [hu]

/-- So does changing the entries from what the old version of a rule names to what the new one
does. -/
theorem Lists.change (h : Lists t rules names) {old new : Rule}
    (hold : rules.get? new.id = some old) (hid : old.id = new.id) :
    Lists (Dependents.addAll
      (Dependents.removeAll t (Dependents.difference (names old) (names new)) old.id)
      (Dependents.difference (names new) (names old)) new.id) (rules.insert new.id new) names := by
  intro k u
  rw [Dependents.mem_users_addAll, Dependents.mem_users_removeAll, h k u, Table.get?_insert,
    Dependents.mem_difference, Dependents.mem_difference, hid]
  by_cases hu : u = new.id
  · subst hu
    simp [hold]
    tauto
  · simp [hu]

/-! ### Indirect users -/

/-- `b` is a user of `a`. -/
def Uses (t : UserTable) (a b : String) : Prop := b ∈ t.users a

/-- A search for the users of users: what it has found, and what it has yet to look at. -/
structure Search where
  /-- The identifiers found. -/
  found : IdSet
  /-- The identifiers to look at, in order. -/
  queue : List String

namespace Search

open Relation

variable {origin k : String} {found : IdSet} {queue : List String} {s s' : Search}

/-- One step of a search from `origin`.  The users of an identifier come in any order. -/
inductive Step (t : UserTable) (origin : String) : Search → Search → Prop
  /-- The origin, and what is found already, is passed over. -/
  | pass {found : IdSet} {id : String} {rest : List String} :
      id = origin ∨ id ∈ found → Step t origin ⟨found, id :: rest⟩ ⟨found, rest⟩
  /-- Anything else is found, and its users are to be looked at. -/
  | find {found : IdSet} {id : String} {rest next : List String} :
      ¬(id = origin ∨ id ∈ found) → next.Perm (t.users id).toList →
      Step t origin ⟨found, id :: rest⟩ ⟨found.insert id, rest ++ next⟩

/-- **No search goes on for ever**, on whatever table. -/
theorem wellFounded_step (t : UserTable) (origin : String) :
    WellFounded (flip (Step t origin)) := by
  have hlt : ∀ {s s'}, Step t origin s s' → Prod.Lex (· < ·) (· < ·)
      (outside t s'.found, s'.queue.length) (outside t s.found, s.queue.length) := by
    intro s s' h
    cases h with
    | pass _ => exact Prod.Lex.right _ (Nat.lt_succ_self _)
    | find hnew hnext => exact outside_found_lt (fun h => hnew (Or.inr h)) hnext.length_eq
  exact Subrelation.wf hlt (InvImage.wf (fun s : Search => (outside t s.found, s.queue.length))
    (Prod.lex Nat.lt_wfRel Nat.lt_wfRel).wf)

theorem exists_step (h : s.queue ≠ []) : ∃ s', Step t origin s s' := by
  obtain ⟨found, queue⟩ := s
  cases queue with
  | nil => exact absurd rfl h
  | cons id rest =>
    by_cases hpass : id = origin ∨ id ∈ found
    · exact ⟨_, .pass hpass⟩
    · exact ⟨_, .find hpass (.refl _)⟩

/-- What holds of a search from `origin` at all times. -/
structure OnCourse (t : UserTable) (origin : String) (s : Search) : Prop where
  /-- What is found is led to, and is not the origin. -/
  found : ∀ k ∈ s.found, k ≠ origin ∧ TransGen t.Uses origin k
  /-- What is to be looked at is led to. -/
  queue : ∀ k ∈ s.queue, TransGen t.Uses origin k
  /-- No user of the origin or of what is found is forgotten. -/
  users : ∀ a, a = origin ∨ a ∈ s.found → ∀ b, t.Uses a b →
    b = origin ∨ b ∈ s.found ∨ b ∈ s.queue

theorem OnCourse.start (h : queue.Perm (t.users origin).toList) : OnCourse t origin ⟨∅, queue⟩ := by
  have hqueue : ∀ k, k ∈ queue ↔ t.Uses origin k := fun k => h.mem_iff.trans IdSet.mem_toList
  refine ⟨fun k hk => absurd hk (IdSet.not_mem_empty k), fun k hk => .single ((hqueue k).1 hk), ?_⟩
  rintro a (rfl | ha) b hb
  · exact Or.inr (Or.inr ((hqueue b).2 hb))
  · exact absurd ha (IdSet.not_mem_empty a)

theorem OnCourse.step (h : OnCourse t origin s) (hstep : Step t origin s s') :
    OnCourse t origin s' := by
  cases hstep with
  | @pass found id rest hpass =>
    refine ⟨h.found, fun k hk => h.queue k (List.mem_cons_of_mem _ hk), fun a ha b hb => ?_⟩
    rcases h.users a ha b hb with hb | hb | hb
    · exact Or.inl hb
    · exact Or.inr (Or.inl hb)
    · rcases List.mem_cons.1 hb with rfl | hb
      · exact hpass.imp_right Or.inl
      · exact Or.inr (Or.inr hb)
  | @find found id rest next hnew hnext =>
    have hid : TransGen t.Uses origin id := h.queue id List.mem_cons_self
    have hmem : ∀ k, k ∈ next ↔ t.Uses id k := fun k => hnext.mem_iff.trans IdSet.mem_toList
    refine ⟨fun k hk => ?_, fun k hk => ?_, fun a ha b hb => ?_⟩
    · rcases IdSet.mem_insert.1 hk with rfl | hk
      · exact ⟨fun heq => hnew (Or.inl heq), hid⟩
      · exact h.found k hk
    · rcases List.mem_append.1 hk with hk | hk
      · exact h.queue k (List.mem_cons_of_mem _ hk)
      · exact hid.tail ((hmem k).1 hk)
    · rw [IdSet.mem_insert, List.mem_append]
      rw [IdSet.mem_insert, or_left_comm] at ha
      rcases ha with rfl | ha
      · -- the users of `id` have just been queued
        exact Or.inr (Or.inr (Or.inr ((hmem b).2 hb)))
      · rcases h.users a ha b hb with hb | hb | hb
        · exact Or.inl hb
        · exact Or.inr (Or.inl (Or.inr hb))
        · rcases List.mem_cons.1 hb with rfl | hb
          · exact Or.inr (Or.inl (Or.inl rfl))
          · exact Or.inr (Or.inr (Or.inl hb))

theorem OnCourse.steps (h : OnCourse t origin s) (hsteps : ReflTransGen (Step t origin) s s') :
    OnCourse t origin s' := by
  induction hsteps with
  | refl => exact h
  | tail _ hstep ih => exact ih.step hstep

/-- When nothing is left to look at, exactly the direct and indirect users are found. -/
theorem OnCourse.mem_found_iff (h : OnCourse t origin ⟨found, []⟩) :
    k ∈ found ↔ k ≠ origin ∧ TransGen t.Uses origin k := by
  have hclosed : ∀ a, a = origin ∨ a ∈ found → ∀ b, t.Uses a b → b = origin ∨ b ∈ found := by
    intro a ha b hb
    exact (h.users a ha b hb).imp_right fun hb => hb.resolve_right List.not_mem_nil
  -- a path may come back to the origin, whose users are found as well
  have hall : ∀ {b}, TransGen t.Uses origin b → b = origin ∨ b ∈ found := by
    intro b hleads
    induction hleads with
    | single hb => exact hclosed origin (Or.inl rfl) _ hb
    | tail _ hb ih => exact hclosed _ ih _ hb
  exact ⟨h.found k, fun ⟨hne, hleads⟩ => (hall hleads).resolve_left hne⟩

/-- The search that the table makes is one of these, and it ends. -/
theorem steps_spread (t : UserTable) (origin : String) (seen : IdSet) (queue : List String) :
    ReflTransGen (Step t origin) ⟨seen, queue⟩ ⟨spread t origin seen queue, []⟩ := by
  induction seen, queue using spread.induct t origin with
  | case1 seen =>
    rw [spread]
  | case2 seen id rest hpass ih =>
    rw [spread, if_pos hpass]
    exact .head (.pass hpass) ih
  | case3 seen id rest hnew ih =>
    rw [spread, if_neg hnew]
    exact .head (.find hnew (.refl _)) ih

end Search

variable {id k : String}

/-- **The closure holds exactly the direct and indirect users** of an identifier, but not itself. -/
theorem mem_closure_iff : k ∈ t.closure id ↔ k ≠ id ∧ Relation.TransGen t.Uses id k :=
  ((Search.OnCourse.start (.refl _)).steps (Search.steps_spread t id ∅ _)).mem_found_iff

/-- **Every search that has ended has found the closure**, in whatever order it went. -/
theorem eq_closure_of_steps {queue : List String} {found : IdSet}
    (hqueue : queue.Perm (t.users id).toList)
    (hsteps : Relation.ReflTransGen (Search.Step t id) ⟨∅, queue⟩ ⟨found, []⟩) :
    found = t.closure id :=
  IdSet.ext fun _ => ((Search.OnCourse.start hqueue).steps hsteps).mem_found_iff.trans
    mem_closure_iff.symm

end UserTable

namespace Dependents

open Relation

variable {d : Dependents} {id k : String}

/-- The rules that a change of a condition concerns: its users and all that lead to one of them. -/
theorem mem_usersOfCondition_iff : k ∈ d.usersOfCondition id true ↔
    ∃ u ∈ d.ofCondition.users id, ReflTransGen d.ofRule.Uses u k := by
  simp only [usersOfCondition, usersOfRule, if_true, Rule.mem_foldl_union, IdSet.mem_toList,
    UserTable.mem_closure_iff]
  constructor
  · rintro (hk | ⟨u, hu, -, hreach⟩)
    · exact ⟨k, hk, .refl⟩
    · exact ⟨u, hu, hreach.to_reflTransGen⟩
  · rintro ⟨u, hu, hreach⟩
    by_cases hk : k = u
    · exact Or.inl (hk ▸ hu)
    · have hpath := (reflTransGen_iff_eq_or_transGen.1 hreach).resolve_left hk
      exact Or.inr ⟨u, hu, hk, hpath⟩

/-- The rules that a change of a rule concerns: the rule itself and all that lead to it. -/
theorem mem_insert_usersOfRule_iff :
    k ∈ (d.usersOfRule id true).insert id ↔ ReflTransGen d.ofRule.Uses id k := by
  rw [IdSet.mem_insert, usersOfRule, if_pos rfl, UserTable.mem_closure_iff,
    reflTransGen_iff_eq_or_transGen]
  tauto

/-- A parent is reported that is the rule itself or among its users. -/
theorem closesCycle?_eq_find? (d : Dependents) (id : String) (parents : List String) :
    d.closesCycle? id parents = parents.find? fun p => p ∈ (d.usersOfRule id true).insert id := by
  refine congrArg (List.find? · parents) (funext fun p => Bool.eq_iff_iff.2 ?_)
  rw [Bool.or_eq_true, beq_iff_eq, decide_eq_true_eq, IdSet.mem_insert]
  rfl

end Dependents

end Newswire
