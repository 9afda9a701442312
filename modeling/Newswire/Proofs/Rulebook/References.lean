import Mathlib.Data.List.Induction
import Newswire.Proofs.Rulebook.Index

/-!
# The references of an index kept by hand

An index may be updated in any way: a rule is entered twice, struck without having been entered, or
replaced by one with another identifier, and rules may name each other in circles or name
themselves.

* `Dependents.Update`, `Dependents.afterUpdates` : updates, and what comes of many.
* `Dependents.Registered` : a reference was entered and has not been struck since.
* `Dependents.mem_users_afterUpdates` : the index lists exactly the registered references.
* `Dependents.Follows` : what it means that the searches of an index follow given references.
* `Dependents.follows_afterUpdates` : **after any updates the searches follow the registered
  references**: they end, and find everything that leads to the identifier and nothing else.
-/

namespace Newswire

namespace Dependents

open Relation UserTable

/-- An update of an index. -/
inductive Update where
  /-- Enter a rule. -/
  | register (r : Rule)
  /-- Strike a rule. -/
  | unregister (r : Rule)
  /-- Put a rule in the place of another. -/
  | replace (old new : Rule)

variable {names : Rule → IdSet} {updates : List Update} {x : Update} {t : UserTable}
  {d : Dependents} {id k u : String}

/-- Carry out an update. -/
def updated (d : Dependents) : Update → Dependents
  | .register r => d.register r
  | .unregister r => d.unregister r
  | .replace old new => d.replace old new

/-- The index after updates, empty at first. -/
def afterUpdates (updates : List Update) : Dependents := updates.foldl updated ∅

namespace Update

/-- What an update does to one of the tables, where `names` says what a rule names. -/
def applyTo (names : Rule → IdSet) (t : UserTable) : Update → UserTable
  | .register r => addAll t (names r).toList r.id
  | .unregister r => removeAll t (names r).toList r.id
  | .replace old new =>
    addAll (removeAll t (difference (names old) (names new)) old.id)
      (difference (names new) (names old)) new.id

/-- The update enters that `u` names `k`.  A replacement enters only what the old rule does not
name. -/
def Enters (names : Rule → IdSet) (u k : String) : Update → Prop
  | .register r => u = r.id ∧ k ∈ names r
  | .unregister _ => False
  | .replace old new => u = new.id ∧ k ∈ names new ∧ k ∉ names old

/-- The update strikes that `u` names `k`.  A replacement strikes only what the new rule does not
name. -/
def Strikes (names : Rule → IdSet) (u k : String) : Update → Prop
  | .register _ => False
  | .unregister r => u = r.id ∧ k ∈ names r
  | .replace old new => u = old.id ∧ k ∈ names old ∧ k ∉ names new

theorem mem_users_applyTo :
    u ∈ (x.applyTo names t).users k ↔
      x.Enters names u k ∨ (u ∈ t.users k ∧ ¬x.Strikes names u k) := by
  cases x with
  | register r =>
    simp only [applyTo, Enters, Strikes, mem_users_addAll, IdSet.mem_toList]
    tauto
  | unregister r =>
    simp only [applyTo, Enters, Strikes, mem_users_removeAll, IdSet.mem_toList]
    tauto
  | replace old new =>
    simp only [applyTo, Enters, Strikes, mem_users_addAll, mem_users_removeAll, mem_difference]
    tauto

end Update

/-! ### Registered references -/

/-- It is registered that `u` names `k`: an update entered it, and no later one struck it. -/
def Registered (names : Rule → IdSet) (updates : List Update) (u k : String) : Prop :=
  ∃ earlier x later, updates = earlier ++ x :: later ∧ x.Enters names u k ∧
    ∀ y ∈ later, ¬y.Strikes names u k

theorem not_registered_nil : ¬Registered names [] u k := by
  rintro ⟨earlier, x, later, h, -⟩
  exact List.append_ne_nil_of_right_ne_nil earlier (List.cons_ne_nil x later) h.symm

theorem registered_append_singleton : Registered names (updates ++ [x]) u k ↔
    x.Enters names u k ∨ (Registered names updates u k ∧ ¬x.Strikes names u k) := by
  constructor
  · rintro ⟨earlier, y, later, h, henters, hkept⟩
    cases later using List.reverseRecOn with
    | nil =>
      obtain ⟨-, hx⟩ := List.append_inj' h rfl
      exact Or.inl (List.singleton_inj.1 hx ▸ henters)
    | append_singleton later z =>
      rw [← List.cons_append, ← List.append_assoc] at h
      obtain ⟨hupdates, hx⟩ := List.append_inj' h rfl
      rw [List.forall_mem_append, List.forall_mem_singleton, ← List.singleton_inj.1 hx] at hkept
      exact Or.inr ⟨⟨earlier, y, later, hupdates, henters, hkept.1⟩, hkept.2⟩
  · rintro (henters | ⟨⟨earlier, y, later, rfl, henters, hkept⟩, hx⟩)
    · exact ⟨updates, x, [], rfl, henters, fun y hy => absurd hy List.not_mem_nil⟩
    · refine ⟨earlier, y, later ++ [x], by simp, henters, ?_⟩
      rw [List.forall_mem_append, List.forall_mem_singleton]
      exact ⟨hkept, hx⟩

/-- The two tables are updated apart. -/
theorem foldl_updated (d : Dependents) (updates : List Update) : updates.foldl updated d =
    ⟨updates.foldl (Update.applyTo Rule.conditionIds) d.ofCondition,
      updates.foldl (Update.applyTo Rule.parentIds) d.ofRule⟩ := by
  induction updates generalizing d with
  | nil => rfl
  | cons x updates ih =>
    rw [List.foldl_cons, ih]
    cases x <;> rfl

/-- **A table lists exactly the registered references.** -/
theorem mem_users_afterUpdates :
    u ∈ UserTable.users (updates.foldl (Update.applyTo names) ∅) k ↔
      Registered names updates u k := by
  induction updates using List.reverseRecOn with
  | nil => exact iff_of_false (IdSet.not_mem_empty u) not_registered_nil
  | append_singleton updates x ih =>
    rw [List.foldl_append, List.foldl_cons, List.foldl_nil, Update.mem_users_applyTo, ih,
      registered_append_singleton]

/-! ### What the searches find -/

/-- The searches of an index follow given references: `names u c` that a rule names a condition, and
`parent u p` that it names a parent. -/
structure Follows (d : Dependents) (names parent : String → String → Prop) : Prop where
  /-- A search for the users of a rule goes on as long as there is something to look at. -/
  goes_on : ∀ id (s : Search), s.queue ≠ [] → ∃ s', Search.Step d.ofRule id s s'
  /-- It does not go on for ever. -/
  ends : ∀ id, WellFounded (flip (Search.Step d.ofRule id))
  /-- In whatever order it went, it has found the same when it ends. -/
  any_order : ∀ id queue found, queue.Perm (d.usersOfRule id false).toList →
    ReflTransGen (Search.Step d.ofRule id) ⟨∅, queue⟩ ⟨found, []⟩ → found = d.usersOfRule id true
  /-- The users of a rule are the other identifiers that lead to it. -/
  usersOfRule : ∀ id k, k ∈ d.usersOfRule id true ↔ k ≠ id ∧ TransGen parent k id
  /-- The users of a condition are the rules that name it, and all that lead to one of them. -/
  usersOfCondition : ∀ id k, k ∈ d.usersOfCondition id true ↔
    ∃ u, names u id ∧ ReflTransGen parent k u
  /-- Of new parents the first one is reported that is the rule itself or leads to it. -/
  closesCycle_some : ∀ id parents p, d.closesCycle? id parents = some p ↔
    ∃ earlier later, parents = earlier ++ p :: later ∧ ReflTransGen parent p id ∧
      ∀ q ∈ earlier, ¬ReflTransGen parent q id
  /-- None is reported exactly if there is none. -/
  closesCycle_none : ∀ id parents, d.closesCycle? id parents = none ↔
    ∀ p ∈ parents, ¬ReflTransGen parent p id

/-- Searches follow the references that the index lists. -/
theorem follows_of_lists {names parent : String → String → Prop}
    (hnames : ∀ c u, u ∈ d.ofCondition.users c ↔ names u c)
    (hparent : ∀ p u, u ∈ d.ofRule.users p ↔ parent u p) : d.Follows names parent := by
  have huses : d.ofRule.Uses = Function.swap parent := by
    funext p u
    exact propext (hparent p u)
  have hleads : ∀ id k, k ∈ (d.usersOfRule id true).insert id ↔ ReflTransGen parent k id := by
    intro id k
    rw [mem_insert_usersOfRule_iff, huses, reflTransGen_swap]
  refine ⟨fun _ _ => Search.exists_step, fun id => Search.wellFounded_step _ id, ?_,
    fun id k => ?_, fun id k => ?_, fun id parents p => ?_, fun id parents => ?_⟩
  · intro id queue found hqueue hsteps
    exact eq_closure_of_steps hqueue hsteps
  · show k ∈ d.ofRule.closure id ↔ _
    rw [mem_closure_iff, huses, transGen_swap]
  · rw [mem_usersOfCondition_iff, huses]
    simp only [hnames, reflTransGen_swap]
  · rw [closesCycle?_eq_find?, List.find?_eq_some_iff_append, decide_eq_true_eq, hleads]
    simp only [Bool.not_eq_true', decide_eq_false_iff_not, hleads]
    constructor
    · rintro ⟨hp, earlier, later, hsplit, hearlier⟩
      exact ⟨earlier, later, hsplit, hp, hearlier⟩
    · rintro ⟨earlier, later, hsplit, hp, hearlier⟩
      exact ⟨hp, earlier, later, hsplit, hearlier⟩
  · rw [closesCycle?_eq_find?, List.find?_eq_none]
    simp only [decide_eq_true_eq, hleads]

/-- **After any updates the searches of the index follow exactly the registered references**, also
where these go in circles. -/
theorem follows_afterUpdates (updates : List Update) : (afterUpdates updates).Follows
    (Registered Rule.conditionIds updates) (Registered Rule.parentIds updates) := by
  rw [afterUpdates, foldl_updated]
  exact follows_of_lists (fun _ _ => mem_users_afterUpdates) fun _ _ => mem_users_afterUpdates

end Dependents

end Newswire
