import Newswire.Proofs.Rule.Order

/-!
# Every order that there is, is found

`Rule.arrange` goes in rounds and takes whatever is ready.  It need not look further: a rule that is
taken early is in nobody's way.

* `Rule.ParentsFirst` : in a list, every rule stands behind all its parents.
* `Rule.InTurn.filter` : an order stays one when rules go out of it that are taken before it begins.
* `Rule.exists_arrangeFrom_of_inTurn` : the exchange argument.  What a round takes can be moved to
  the front of any order, and the rest of the order serves for the rounds that follow.
* `Rule.arranges_exactly` : **`Rule.arrange` puts parents first, and it succeeds exactly on lists
  that can be put into such an order**, also with repeated identifiers and rules that name
  themselves.
-/

namespace Newswire

namespace Rule

variable {rules waiting xs : List Rule} {taken : IdSet} {before before' : String → Prop}

/-- Every parent of a rule in the list has another identifier than the rule, and it is the
identifier of a rule that stands earlier. -/
def ParentsFirst (xs : List Rule) : Prop :=
  ∀ earlier r later, xs = earlier ++ r :: later →
    ∀ k ∈ r.parentIds, k ≠ r.id ∧ ∃ p ∈ earlier, p.id = k

/-- In turn is parents first, but for the parents that are taken before the list begins. -/
theorem inTurn_iff : InTurn before xs ↔ ∀ earlier r later, xs = earlier ++ r :: later →
    ∀ k ∈ r.parentIds, k ≠ r.id ∧ (before k ∨ ∃ p ∈ earlier, p.id = k) := by
  constructor
  · rintro h earlier r later rfl k hk
    exact h.parents hk
  · intro h
    induction xs generalizing before with
    | nil => trivial
    | cons x rest ih =>
      refine ⟨fun k hk => ?_, ih fun earlier r later hrest k hk => ?_⟩
      · obtain ⟨hne, htaken⟩ := h [] x rest rfl k hk
        exact ⟨hne, htaken.resolve_right fun ⟨_, hp, _⟩ => List.not_mem_nil hp⟩
      · obtain ⟨hne, htaken⟩ := h (x :: earlier) r later (congrArg (x :: ·) hrest) k hk
        refine ⟨hne, ?_⟩
        rwa [List.exists_mem_cons_iff, ← or_assoc, eq_comm (a := x.id)] at htaken

theorem parentsFirst_iff : ParentsFirst xs ↔ InTurn (fun _ => False) xs := by
  rw [inTurn_iff]
  simp only [ParentsFirst, false_or]

/-- Rules may go out of an order when they are taken before it begins. -/
theorem InTurn.filter (h : InTurn before xs) {keep : Rule → Bool}
    (hle : ∀ k, before k → before' k) (hgone : ∀ x ∈ xs, keep x = false → before' x.id) :
    InTurn before' (xs.filter keep) := by
  induction xs generalizing before before' with
  | nil => trivial
  | cons x rest ih =>
    obtain ⟨hx, hrest⟩ := h
    cases hkeep : keep x with
    | false =>
      -- what stands behind the rule still finds it taken
      rw [List.filter_cons_of_neg (by simp [hkeep])]
      refine ih hrest (fun k hk => ?_) fun y hy => hgone y (List.mem_cons_of_mem _ hy)
      rcases hk with hk | rfl
      · exact hle k hk
      · exact hgone x List.mem_cons_self hkeep
    | true =>
      rw [List.filter_cons_of_pos hkeep]
      refine ⟨fun k hk => ⟨(hx k hk).1, hle k (hx k hk).2⟩, ih hrest (fun k hk => ?_) ?_⟩
      · exact hk.imp_left (hle k)
      · exact fun y hy hout => Or.inl (hgone y (List.mem_cons_of_mem _ hy) hout)

/-- **Rounds come to an end of every list that has an order.** -/
theorem exists_arrangeFrom_of_inTurn (hperm : xs.Perm waiting) (hturn : InTurn (· ∈ taken) xs) :
    ∃ out, arrangeFrom taken waiting = .ok out := by
  induction taken, waiting using arrangeFrom.induct generalizing xs with
  | case1 taken waiting first hfirst now =>
    rename_i ih
    have htaken : ∀ x ∈ xs, (!isReady taken x) = false →
        x.id ∈ (ready taken waiting).foldl (fun ids r => ids.insert r.id) taken := by
      intro x hx hready
      have hmem := mem_ready.2 ⟨hperm.mem_iff.1 hx, by simpa using hready⟩
      exact mem_taken.2 (Or.inr ⟨x, hmem, rfl⟩)
    -- the order without what is taken now is an order of what waits on
    have hrest : (xs.filter fun r => !isReady taken r).Perm (unready taken waiting) :=
      hperm.filter _
    obtain ⟨later, hlater⟩ :=
      ih hrest (hturn.filter (fun k hk => mem_taken.2 (Or.inl hk)) htaken)
    rw [arrangeFrom_of_ready hfirst, hlater]
    exact ⟨_, rfl⟩
  | case2 taken => exact ⟨[], arrangeFrom_nil taken⟩
  | case3 taken first rest hnone =>
    -- the first of the order waits for nothing, so it is ready
    obtain ⟨x, xs, rfl⟩ : ∃ x ys, xs = x :: ys :=
      List.exists_cons_of_ne_nil fun hnil => by simp [hnil] at hperm
    have hready := mem_ready.2 ⟨hperm.mem_iff.1 List.mem_cons_self, isReady_iff.2 hturn.1⟩
    rw [List.head?_eq_none_iff] at hnone
    exact absurd hready (hnone ▸ List.not_mem_nil)

/-- **What is arranged has the rules of the list with parents first, and a list is arranged exactly
if some permutation of it has parents first.** -/
theorem arranges_exactly (rules : List Rule) :
    (∀ out, arrange rules = .ok out → out.Perm rules ∧ ParentsFirst out) ∧
      ((∃ out, arrange rules = .ok out) ↔ ∃ xs, xs.Perm rules ∧ ParentsFirst xs) := by
  have hout : ∀ out, arrange rules = .ok out → out.Perm rules ∧ ParentsFirst out := by
    intro out h
    obtain ⟨hperm, hturn⟩ := arrange_eq_ok h
    exact ⟨hperm, parentsFirst_iff.2 hturn⟩
  refine ⟨hout, fun ⟨out, h⟩ => ⟨out, hout out h⟩, ?_⟩
  rintro ⟨xs, hperm, hfirst⟩
  exact exists_arrangeFrom_of_inTurn hperm ((parentsFirst_iff.1 hfirst).mono fun _ => False.elim)

end Rule

end Newswire
