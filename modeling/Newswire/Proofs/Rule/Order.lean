import Mathlib.Data.Fintype.EquivFin
import Mathlib.Data.List.Perm.Basic
import Mathlib.Logic.Relation
import Mathlib.Order.WellFounded
import Newswire.Proofs.Query.Decision
import Newswire.Rule.Order

/-!
# Rules in turn

* `Rule.InTurn` : every rule stands behind its parents.
* `Rule.arrangeFrom_eq_ok` : what `Rule.arrangeFrom` makes has the rules of the list, in turn.
* `Rule.exists_ready` : in a finite graph without circles some rule waits for none of the others.
* `Rule.exists_arrange` : **rules that name no rule outside the list and that have no circles can be
  arranged.**
-/

namespace Newswire

namespace Rule

open Relation

variable {rules waiting out xs ys : List Rule} {taken : IdSet} {r : Rule}

/-- A rule of the list names a parent. -/
def Names (rules : List Rule) (u k : String) : Prop := ∃ r ∈ rules, r.id = u ∧ k ∈ r.parentIds

/-- Every rule stands behind its parents, unless they are taken before the list begins. -/
def InTurn (taken : String → Prop) : List Rule → Prop
  | [] => True
  | r :: rest =>
    (∀ k ∈ r.parentIds, k ≠ r.id ∧ taken k) ∧ InTurn (fun k => taken k ∨ k = r.id) rest

variable {before before' : String → Prop}

theorem InTurn.mono (h : InTurn before xs) (hle : ∀ k, before k → before' k) :
    InTurn before' xs := by
  induction xs generalizing before before' with
  | nil => trivial
  | cons r rest ih =>
    obtain ⟨hr, hrest⟩ := h
    refine ⟨fun k hk => ⟨(hr k hk).1, hle k (hr k hk).2⟩, ih hrest fun k hk => ?_⟩
    exact hk.imp (hle k) fun h => h

theorem inTurn_append : InTurn before (xs ++ ys) ↔
    InTurn before xs ∧ InTurn (fun k => before k ∨ ∃ x ∈ xs, x.id = k) ys := by
  induction xs generalizing before with
  | nil => simp [InTurn]
  | cons r rest ih =>
    have hsame : (fun k => (before k ∨ k = r.id) ∨ ∃ x ∈ rest, x.id = k) =
        fun k => before k ∨ ∃ x ∈ r :: rest, x.id = k := by
      funext k
      simp only [List.exists_mem_cons_iff, or_assoc, eq_comm]
    rw [List.cons_append, InTurn, InTurn, ih, hsame, and_assoc]

theorem inTurn_of_ready (h : ∀ r ∈ xs, ∀ k ∈ r.parentIds, k ≠ r.id ∧ before k) :
    InTurn before xs := by
  induction xs generalizing before with
  | nil => trivial
  | cons r rest ih =>
    refine ⟨h r List.mem_cons_self, ih fun s hs k hk => ?_⟩
    obtain ⟨hne, hk⟩ := h s (List.mem_cons_of_mem _ hs) k hk
    exact ⟨hne, Or.inl hk⟩

theorem InTurn.parents (h : InTurn before (xs ++ r :: ys)) {k : String} (hk : k ∈ r.parentIds) :
    k ≠ r.id ∧ (before k ∨ ∃ p ∈ xs, p.id = k) :=
  (inTurn_append.1 h).2.1 k hk

/-! ### Rounds -/

theorem isReady_iff : isReady taken r = true ↔ ∀ k ∈ r.parentIds, k ≠ r.id ∧ k ∈ taken := by
  simp only [isReady, List.all_eq_true, IdSet.mem_toList, Bool.and_eq_true, bne_iff_ne]
  rfl

theorem mem_ready : r ∈ ready taken waiting ↔ r ∈ waiting ∧ isReady taken r = true :=
  List.mem_filter

theorem mem_unready : r ∈ unready taken waiting ↔ r ∈ waiting ∧ ¬isReady taken r = true := by
  rw [unready, List.mem_filter, Bool.not_eq_true', Bool.not_eq_true]

theorem mem_taken {now : List Rule} {k : String} :
    k ∈ now.foldl (fun ids r => ids.insert r.id) taken ↔ k ∈ taken ∨ ∃ r ∈ now, r.id = k := by
  have hmap : now.foldl (fun ids r => ids.insert r.id) taken =
      (now.map Rule.id).foldl IdSet.insert taken := List.foldl_map.symm
  rw [hmap, IdSet.mem_foldl_insert, List.mem_map, or_comm]

theorem arrangeFrom_nil (taken : IdSet) : arrangeFrom taken [] = .ok [] := by
  rw [arrangeFrom]
  rfl

theorem arrangeFrom_of_ready {first : Rule} (h : (ready taken waiting).head? = some first) :
    arrangeFrom taken waiting = (do
      let later ← arrangeFrom ((ready taken waiting).foldl (fun ids r => ids.insert r.id) taken)
        (unready taken waiting)
      return ready taken waiting ++ later) := by
  rw [arrangeFrom]
  split
  · rfl
  · next hnone => cases h.symm.trans hnone

theorem arrangeFrom_of_stuck {first : Rule} {rest : List Rule}
    (h : (ready taken (first :: rest)).head? = none) :
    arrangeFrom taken (first :: rest) = .error (stuck taken (first :: rest) first) := by
  rw [arrangeFrom]
  split
  · next hsome => cases h.symm.trans hsome
  · rfl

/-- **What is made of a list has its rules, in turn.** -/
theorem arrangeFrom_eq_ok : ∀ {out}, arrangeFrom taken waiting = .ok out →
    out.Perm waiting ∧ InTurn (· ∈ taken) out := by
  induction taken, waiting using arrangeFrom.induct with
  | case1 taken waiting first hfirst now =>
    rename_i ih
    intro out h
    rw [arrangeFrom_of_ready hfirst] at h
    obtain ⟨later, hlater, hout⟩ := bind_eq_ok_iff.1 h
    obtain rfl := Except.ok.inj hout
    obtain ⟨hperm, hturn⟩ := ih hlater
    refine ⟨(hperm.append_left _).trans (List.filter_append_perm (isReady taken) waiting), ?_⟩
    refine inTurn_append.2 ⟨inTurn_of_ready fun r hr => isReady_iff.1 (mem_ready.1 hr).2, ?_⟩
    exact hturn.mono fun k => mem_taken.1
  | case2 taken =>
    intro out h
    rw [arrangeFrom_nil] at h
    obtain rfl := Except.ok.inj h
    exact ⟨.nil, trivial⟩
  | case3 taken first rest hnone =>
    intro out h
    rw [arrangeFrom_of_stuck hnone] at h
    cases h

/-! ### No circles -/

/-- Every parent is taken, or some rule of the list. -/
def Closed (taken : IdSet) (waiting : List Rule) : Prop :=
  ∀ r ∈ waiting, ∀ k ∈ r.parentIds, k ∈ taken ∨ ∃ p ∈ waiting, p.id = k

theorem Names.mono (h : ∀ r ∈ xs, r ∈ ys) {u k : String} (hnames : Names xs u k) : Names ys u k := by
  obtain ⟨r, hr, hid, hk⟩ := hnames
  exact ⟨r, h r hr, hid, hk⟩

/-- **In a finite graph without circles some rule waits for none of the others.** -/
theorem exists_ready (hclosed : Closed taken waiting)
    (hacyclic : ∀ k, ¬TransGen (Names waiting) k k) (hne : waiting ≠ []) :
    ∃ r ∈ waiting, isReady taken r = true := by
  -- the identifiers are finitely many, so one of them leads to no other
  let below : {k // k ∈ waiting.map Rule.id} → {k // k ∈ waiting.map Rule.id} → Prop :=
    fun a b => TransGen (Names waiting) b a
  have : IsTrans _ below := ⟨fun _ _ _ hab hbc => hbc.trans hab⟩
  have : Std.Irrefl below := ⟨fun k => hacyclic k⟩
  have hwf : WellFounded below := Finite.wellFounded_of_trans_of_irrefl below
  obtain ⟨first, hfirst⟩ := List.exists_mem_of_ne_nil waiting hne
  obtain ⟨⟨m, hm⟩, -, hmin⟩ := hwf.has_min Set.univ
    ⟨⟨first.id, List.mem_map_of_mem hfirst⟩, Set.mem_univ _⟩
  obtain ⟨r, hr, rfl⟩ := List.mem_map.1 hm
  refine ⟨r, hr, isReady_iff.2 fun k hk => ?_⟩
  have hedge : Names waiting r.id k := ⟨r, hr, rfl, hk⟩
  refine ⟨?_, (hclosed r hr k hk).resolve_right ?_⟩
  · rintro rfl
    exact hacyclic _ (.single hedge)
  · rintro ⟨p, hp, rfl⟩
    exact hmin ⟨p.id, List.mem_map_of_mem hp⟩ (Set.mem_univ _) (.single hedge)

/-- What is not ready names only what is taken after the round, or what is not ready either. -/
theorem Closed.unready (h : Closed taken waiting) :
    Closed ((ready taken waiting).foldl (fun ids r => ids.insert r.id) taken)
      (unready taken waiting) := by
  intro r hr k hk
  rw [mem_taken]
  rcases h r (mem_unready.1 hr).1 k hk with hk | ⟨p, hp, rfl⟩
  · exact Or.inl (Or.inl hk)
  · by_cases hready : isReady taken p = true
    · exact Or.inl (Or.inr ⟨p, mem_ready.2 ⟨hp, hready⟩, rfl⟩)
    · exact Or.inr ⟨p, mem_unready.2 ⟨hp, hready⟩, rfl⟩

theorem exists_arrangeFrom (hclosed : Closed taken waiting)
    (hacyclic : ∀ k, ¬TransGen (Names waiting) k k) : ∃ out, arrangeFrom taken waiting = .ok out := by
  induction taken, waiting using arrangeFrom.induct with
  | case1 taken waiting first hfirst now ih =>
    have hrest : ∀ k, ¬TransGen (Names (unready taken waiting)) k k := fun k hk =>
      hacyclic k (TransGen.mono (fun _ _ h => h.mono fun r hr => (mem_unready.1 hr).1) k k hk)
    obtain ⟨later, hlater⟩ := ih hclosed.unready hrest
    rw [arrangeFrom_of_ready hfirst, hlater]
    exact ⟨_, rfl⟩
  | case2 taken => exact ⟨[], arrangeFrom_nil taken⟩
  | case3 taken first rest hnone =>
    obtain ⟨r, hr, hready⟩ := exists_ready hclosed hacyclic (List.cons_ne_nil first rest)
    rw [List.head?_eq_none_iff] at hnone
    exact absurd (mem_ready.2 ⟨hr, hready⟩) (hnone ▸ List.not_mem_nil)

/-- **Rules without circles that name no rule outside the list can be arranged.** -/
theorem exists_arrange (hclosed : ∀ r ∈ rules, ∀ k ∈ r.parentIds, ∃ p ∈ rules, p.id = k)
    (hacyclic : ∀ k, ¬TransGen (Names rules) k k) : ∃ out, arrange rules = .ok out :=
  exists_arrangeFrom (fun r hr k hk => Or.inr (hclosed r hr k hk)) hacyclic

/-- What is arranged has the rules of the list, with parents first. -/
theorem arrange_eq_ok (h : arrange rules = .ok out) :
    out.Perm rules ∧ InTurn (fun _ => False) out := by
  obtain ⟨hperm, hturn⟩ := arrangeFrom_eq_ok h
  exact ⟨hperm, hturn.mono fun k hk => IdSet.not_mem_empty k hk⟩

end Rule

end Newswire
