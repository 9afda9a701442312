import Mathlib.Data.List.Nodup
import Newswire.Proofs.Rule.Order

/-!
# Rules that wait in vain

When `Rule.arrange` comes to a round in which no rule is ready, the rules that are left over are
those from which parents lead out of the list or into a circle.  What is reported goes by the first
of them alone: a parent of its own that is missing, or else a circle.

* `Rule.Standstill` : the rounds so far, when no further rule is ready (`Rule.standstill_of_error`).
* `Rule.Blocked` : parents lead out of the list or into a circle.  At a standstill **the blocked
  rules are left over, and no others** (`Rule.Standstill.mem_left_iff`).
* `Rule.Reports` : what is said of the first blocked rule.
* `Rule.NamesCause` : a missing rule that is reported is missing, and a circle that is reported is
  one.
* `Rule.fails_exactly` : **what is reported names the cause exactly if there is a circle or the
  first blocked rule names a missing parent itself.**
* `Rule.misreported_circle` : a rule whose parent names a missing one is reported as a circle.
-/

namespace Newswire

namespace Rule

open Relation

variable {rules waiting placed left xs : List Rule} {taken settled : IdSet} {r first : Rule}
  {e : RuleError} {u k : String}

/-! ### Rounds without an end -/

/-- The rounds have placed some of the waiting rules, and none of those that are left is ready. -/
structure Standstill (taken : IdSet) (waiting placed left : List Rule) (settled : IdSet) :
    Prop where
  /-- No rule is lost. -/
  perm : (placed ++ left).Perm waiting
  /-- The rules that are left stand as they stood. -/
  kept : ∃ keep, left = waiting.filter keep
  /-- The placed rules are in turn. -/
  inTurn : InTurn (· ∈ taken) placed
  /-- Besides what was taken before, the identifiers of the placed rules are taken. -/
  settled_iff : ∀ k, k ∈ settled ↔ k ∈ taken ∨ k ∈ placed.map Rule.id
  /-- Nothing is ready. -/
  unready : ∀ r ∈ left, ¬isReady settled r = true

/-- **A failure is a standstill**, and it is explained by the first rule that is left. -/
theorem standstill_of_error (h : arrangeFrom taken waiting = .error e) :
    ∃ placed first rest settled, Standstill taken waiting placed (first :: rest) settled ∧
      e = stuck settled (first :: rest) first := by
  induction taken, waiting using arrangeFrom.induct with
  | case1 taken waiting r hr now =>
    rename_i ih
    rw [arrangeFrom_of_ready hr] at h
    have hlater : arrangeFrom ((ready taken waiting).foldl (fun ids r => ids.insert r.id) taken)
        (unready taken waiting) = .error e := by
      cases hlater : arrangeFrom ((ready taken waiting).foldl (fun ids r => ids.insert r.id) taken)
          (unready taken waiting) with
      | ok later => rw [hlater] at h; cases h
      | error e' => rw [hlater] at h; exact congrArg _ (Except.error.inj h)
    obtain ⟨placed, first, rest, settled, hs, he⟩ := ih hlater
    refine ⟨ready taken waiting ++ placed, first, rest, settled,
      ⟨?_, ?_, ?_, fun k => ?_, hs.unready⟩, he⟩
    · rw [List.append_assoc]
      exact (hs.perm.append_left _).trans (List.filter_append_perm (isReady taken) waiting)
    · obtain ⟨keep, hkeep⟩ := hs.kept
      rw [hkeep, unready, List.filter_filter]
      exact ⟨_, rfl⟩
    · refine inTurn_append.2 ⟨inTurn_of_ready fun r hr => isReady_iff.1 (mem_ready.1 hr).2, ?_⟩
      exact hs.inTurn.mono fun k => mem_taken.1
    · rw [hs.settled_iff, mem_taken, List.map_append, List.mem_append, ← List.mem_map, or_assoc]
  | case2 taken =>
    rw [arrangeFrom_nil] at h
    cases h
  | case3 taken first rest hnone =>
    rw [arrangeFrom_of_stuck hnone] at h
    refine ⟨[], first, rest, taken, ⟨.refl _, ⟨fun _ => true, ?_⟩, trivial, fun k => ?_, ?_⟩,
      (Except.error.inj h).symm⟩
    · rw [List.filter_true]
    · simp
    · rw [List.head?_eq_none_iff] at hnone
      intro r hr hready
      exact List.not_mem_nil (hnone ▸ mem_ready.2 ⟨hr, hready⟩)

/-! ### What is left over -/

/-- No rule of the list has the identifier. -/
def Missing (rules : List Rule) (k : String) : Prop := k ∉ rules.map Rule.id

/-- From the rule, parents lead to an identifier that is missing or into a circle. -/
def Blocked (rules : List Rule) (u : String) : Prop :=
  ∃ k, ReflTransGen (Names rules) u k ∧ (Missing rules k ∨ TransGen (Names rules) k k)

theorem mem_parentIds_of_names (hdistinct : (rules.map Rule.id).Nodup) (hr : r ∈ rules)
    (h : Names rules r.id k) : k ∈ r.parentIds := by
  obtain ⟨s, hs, hid, hk⟩ := h
  exact List.inj_on_of_nodup_map hdistinct hs hr hid ▸ hk

/-- A blocked rule of the list has a blocked parent. -/
theorem Blocked.exists_parent (h : Blocked rules r.id) (hdistinct : (rules.map Rule.id).Nodup)
    (hr : r ∈ rules) : ∃ k ∈ r.parentIds, Blocked rules k := by
  obtain ⟨k, hleads, hend⟩ := h
  suffices hstep : ∃ j, Names rules r.id j ∧ Blocked rules j by
    obtain ⟨j, hnames, hj⟩ := hstep
    exact ⟨j, mem_parentIds_of_names hdistinct hr hnames, hj⟩
  rcases ReflTransGen.cases_head hleads with rfl | ⟨j, hnames, hleads⟩
  · -- the rule is in the list, so it is in a circle
    have hcircle := hend.resolve_left fun hmissing => hmissing (List.mem_map_of_mem hr)
    obtain ⟨j, hnames, hback⟩ := TransGen.head'_iff.1 hcircle
    exact ⟨j, hnames, r.id, hback, Or.inr hcircle⟩
  · exact ⟨j, hnames, k, hleads, hend⟩

theorem InTurn.not_blocked {before : String → Prop} (h : InTurn before xs)
    (hdistinct : (rules.map Rule.id).Nodup) (hxs : ∀ r ∈ xs, r ∈ rules)
    (hbefore : ∀ k, before k → ¬Blocked rules k) : ∀ r ∈ xs, ¬Blocked rules r.id := by
  induction xs generalizing before with
  | nil => exact fun r hr => absurd hr List.not_mem_nil
  | cons x rest ih =>
    obtain ⟨hx, hrest⟩ := h
    have hfree : ¬Blocked rules x.id := by
      intro hblocked
      obtain ⟨k, hk, hkblocked⟩ := hblocked.exists_parent hdistinct (hxs x List.mem_cons_self)
      exact hbefore k (hx k hk).2 hkblocked
    refine List.forall_mem_cons.2 ⟨hfree, ih hrest (fun r hr => ?_) ?_⟩
    · exact hxs r (List.mem_cons_of_mem _ hr)
    · rintro k (hk | rfl)
      · exact hbefore k hk
      · exact hfree

namespace Standstill

theorem missing_iff (h : Standstill ∅ rules placed left settled) :
    Missing rules k ↔ k ∉ settled ∧ Missing left k := by
  rw [Missing, Missing, ← (h.perm.map Rule.id).mem_iff, List.map_append, List.mem_append,
    h.settled_iff, or_iff_right (IdSet.not_mem_empty k), not_or]

/-- Every rule that is left is blocked.  If one were not, the rules that it leads to would be closed
and without circles, and among those that are left one would be ready. -/
theorem blocked_of_mem_left (h : Standstill ∅ rules placed left settled) (hr : r ∈ left) :
    Blocked rules r.id := by
  classical
  by_contra hfree
  have hleft : ∀ s ∈ left, s ∈ rules := fun s hs => h.perm.mem_iff.1 (List.mem_append_right _ hs)
  let led := left.filter fun s => decide (ReflTransGen (Names rules) r.id s.id)
  have hled : ∀ {s}, s ∈ led ↔ s ∈ left ∧ ReflTransGen (Names rules) r.id s.id := by
    intro s
    simp only [led, List.mem_filter, decide_eq_true_eq]
  have hclosed : Closed settled led := by
    intro s hs k hk
    obtain ⟨hs, hleads⟩ := hled.1 hs
    have hleadsk := hleads.tail ⟨s, hleft s hs, rfl, hk⟩
    have hpresent : ¬Missing rules k := fun hmissing => hfree ⟨k, hleadsk, Or.inl hmissing⟩
    by_cases hsettled : k ∈ settled
    · exact Or.inl hsettled
    · have hkleft : k ∈ left.map Rule.id := by
        by_contra hno
        exact hpresent (h.missing_iff.2 ⟨hsettled, hno⟩)
      obtain ⟨p, hp, rfl⟩ := List.mem_map.1 hkleft
      exact Or.inr ⟨p, hled.2 ⟨hp, hleadsk⟩, rfl⟩
  have hacyclic : ∀ k, ¬TransGen (Names led) k k := by
    intro k hcircle
    obtain ⟨_, ⟨s, hs, rfl, -⟩, -⟩ := TransGen.head'_iff.1 hcircle
    refine hfree ⟨s.id, (hled.1 hs).2, Or.inr (TransGen.mono (fun _ _ hnames => ?_) _ _ hcircle)⟩
    exact hnames.mono fun x hx => hleft x (hled.1 hx).1
  have hne : led ≠ [] := List.ne_nil_of_mem (hled.2 ⟨hr, .refl⟩)
  obtain ⟨s, hs, hready⟩ := exists_ready hclosed hacyclic hne
  exact h.unready s (hled.1 hs).1 hready

/-- **The blocked rules are left, and no others.** -/
theorem mem_left_iff (h : Standstill ∅ rules placed left settled)
    (hdistinct : (rules.map Rule.id).Nodup) : r ∈ left ↔ r ∈ rules ∧ Blocked rules r.id := by
  constructor
  · intro hr
    exact ⟨h.perm.mem_iff.1 (List.mem_append_right _ hr), h.blocked_of_mem_left hr⟩
  · rintro ⟨hr, hblocked⟩
    refine (List.mem_append.1 (h.perm.mem_iff.2 hr)).resolve_left fun hplaced => ?_
    refine h.inTurn.not_blocked hdistinct (fun s hs => ?_) (fun k hk => ?_) r hplaced hblocked
    · exact h.perm.mem_iff.1 (List.mem_append_left _ hs)
    · exact absurd hk (IdSet.not_mem_empty k)

end Standstill

/-! ### What is reported -/

/-- The first rule of the list that is blocked. -/
def FirstBlocked (rules : List Rule) (first : Rule) : Prop :=
  ∃ earlier later, rules = earlier ++ first :: later ∧ Blocked rules first.id ∧
    ∀ r ∈ earlier, ¬Blocked rules r.id

theorem FirstBlocked.mem (h : FirstBlocked rules first) : first ∈ rules := by
  obtain ⟨earlier, later, hsplit, -⟩ := h
  exact hsplit ▸ List.mem_append_right _ List.mem_cons_self

theorem FirstBlocked.blocked (h : FirstBlocked rules first) : Blocked rules first.id := by
  obtain ⟨_, _, -, hblocked, -⟩ := h
  exact hblocked

/-- What is reported when `first` is the first blocked rule. -/
inductive Reports (rules : List Rule) (first : Rule) : RuleError → Prop
  /-- Some of its parents are missing; the least of them is named. -/
  | missing {p : String} : p ∈ first.parentIds → Missing rules p →
      (∀ q ∈ first.parentIds, Missing rules q → ¬q < p) → Reports rules first (.ruleNotFound p)
  /-- None of its parents is missing; all blocked rules are named, in the order of the list. -/
  | circle {path : List String} : (∀ k ∈ first.parentIds, ¬Missing rules k) →
      path.Sublist (rules.map Rule.id) → (∀ r ∈ rules, r.id ∈ path ↔ Blocked rules r.id) →
      Reports rules first (.cycle path)

/-- What is reported is true: a rule that is said to be missing is a parent in the list and is
missing, and where a circle is reported there is one. -/
def NamesCause (rules : List Rule) (e : RuleError) : Prop :=
  (∀ p, e = .ruleNotFound p → (∃ r ∈ rules, p ∈ r.parentIds) ∧ Missing rules p) ∧
    ∀ path, e = .cycle path → ∃ k, TransGen (Names rules) k k

/-- The parents of the first rule are looked through in their order. -/
theorem stuck_cases (settled : IdSet) (left : List Rule) (first : Rule) :
    (∃ p ∈ first.parentIds, (p ∉ settled ∧ Missing left p) ∧
      (∀ q ∈ first.parentIds, q ∉ settled ∧ Missing left q → ¬q < p) ∧
      stuck settled left first = .ruleNotFound p) ∨
    ((∀ k ∈ first.parentIds, ¬(k ∉ settled ∧ Missing left k)) ∧
      stuck settled left first = .cycle (left.map Rule.id)) := by
  have hmissing : ∀ k, (!settled.contains k && !(left.map Rule.id).contains k) = true ↔
      k ∉ settled ∧ Missing left k := by
    intro k
    rw [Bool.and_eq_true, Bool.not_eq_true', Bool.not_eq_true', ← Bool.not_eq_true,
      ← Bool.not_eq_true, List.contains_iff_mem]
    rfl
  unfold stuck
  dsimp only
  cases hfind : first.parentIds.toList.find? fun k =>
      !settled.contains k && !(left.map Rule.id).contains k with
  | some p =>
    obtain ⟨hp, before, after, hsplit, hbefore⟩ := List.find?_eq_some_iff_append.1 hfind
    have hmem : p ∈ first.parentIds := IdSet.mem_toList.1 (List.mem_of_find?_eq_some hfind)
    refine Or.inl ⟨p, hmem, (hmissing p).1 hp, fun q hq hqmissing hlt => ?_, rfl⟩
    -- what is less than `p` stands before it
    have hsorted := first.parentIds.pairwise_toList
    rw [hsplit] at hsorted
    rcases List.mem_append.1 (hsplit ▸ IdSet.mem_toList.2 hq) with hq | hq
    · have hpresent := hbefore q hq
      rw [(hmissing q).2 hqmissing] at hpresent
      cases hpresent
    · rcases List.mem_cons.1 hq with rfl | hq
      · exact String.lt_irrefl _ hlt
      · have hafter := (List.pairwise_cons.1 (List.pairwise_append.1 hsorted).2.1).1 q hq
        exact String.lt_irrefl _ (String.lt_trans hlt hafter)
  | none =>
    refine Or.inr ⟨fun k hk hkmissing => ?_, rfl⟩
    exact List.find?_eq_none.1 hfind k (IdSet.mem_toList.2 hk) ((hmissing k).2 hkmissing)

/-- At a standstill the first rule that is left is the first blocked one, and it is reported. -/
theorem Standstill.reports {rest : List Rule}
    (h : Standstill ∅ rules placed (first :: rest) settled)
    (hdistinct : (rules.map Rule.id).Nodup) :
    FirstBlocked rules first ∧ Reports rules first (stuck settled (first :: rest) first) := by
  obtain ⟨keep, hkeep⟩ := h.kept
  have hsublist : ((first :: rest).map Rule.id).Sublist (rules.map Rule.id) :=
    (hkeep ▸ List.filter_sublist).map _
  constructor
  · obtain ⟨earlier, later, hsplit, hearlier, hfirst, -⟩ := List.filter_eq_cons_iff.1 hkeep.symm
    refine ⟨earlier, later, hsplit, h.blocked_of_mem_left List.mem_cons_self, ?_⟩
    intro r hr hblocked
    have hr' : r ∈ rules := hsplit ▸ List.mem_append_left _ hr
    have hleft := (h.mem_left_iff hdistinct).2 ⟨hr', hblocked⟩
    rw [hkeep] at hleft
    exact hearlier r hr (List.mem_filter.1 hleft).2
  · rcases stuck_cases settled (first :: rest) first with
      ⟨p, hp, hmissing, hleast, he⟩ | ⟨hnone, he⟩
    · rw [he]
      refine .missing hp (h.missing_iff.2 hmissing) fun q hq hqmissing => ?_
      exact hleast q hq (h.missing_iff.1 hqmissing)
    · rw [he]
      refine .circle (fun k hk hmissing => hnone k hk (h.missing_iff.1 hmissing)) hsublist ?_
      intro r hr
      constructor
      · intro hmem
        obtain ⟨s, hs, hid⟩ := List.mem_map.1 hmem
        exact hid ▸ h.blocked_of_mem_left hs
      · exact fun hblocked => List.mem_map_of_mem ((h.mem_left_iff hdistinct).2 ⟨hr, hblocked⟩)

/-- What is reported of the first blocked rule is true exactly if there is a circle or the rule
names a missing parent. -/
theorem Reports.namesCause_iff (h : Reports rules first e) (hfirst : first ∈ rules) :
    NamesCause rules e ↔
      (∃ k, TransGen (Names rules) k k) ∨ ∃ k ∈ first.parentIds, Missing rules k := by
  cases h with
  | @missing p hp hmissing _ =>
    refine iff_of_true ⟨fun q hq => ?_, fun path hpath => nomatch hpath⟩ (Or.inr ⟨p, hp, hmissing⟩)
    obtain rfl := RuleError.ruleNotFound.inj hq
    exact ⟨⟨first, hfirst, hp⟩, hmissing⟩
  | circle hnone _ _ =>
    constructor
    · exact fun hcause => Or.inl (hcause.2 _ rfl)
    · rintro (hcircle | ⟨k, hk, hmissing⟩)
      · exact ⟨fun p hp => (nomatch hp), fun _ _ => hcircle⟩
      · exact absurd hmissing (hnone k hk)

/-- Every failure is reported for the first blocked rule. -/
theorem reports_of_error (hdistinct : (rules.map Rule.id).Nodup) (h : arrange rules = .error e) :
    ∃ first, FirstBlocked rules first ∧ Reports rules first e := by
  obtain ⟨placed, first, rest, settled, hs, rfl⟩ := standstill_of_error h
  obtain ⟨hfirst, he⟩ := hs.reports hdistinct
  exact ⟨first, hfirst, he⟩

theorem exists_error_of_blocked (hdistinct : (rules.map Rule.id).Nodup) (hr : r ∈ rules)
    (hblocked : Blocked rules r.id) : ∃ e, arrange rules = .error e := by
  cases h : arrange rules with
  | error e => exact ⟨e, rfl⟩
  | ok out =>
    obtain ⟨hperm, hturn⟩ := arrange_eq_ok h
    have hfree := hturn.not_blocked hdistinct (fun s hs => hperm.mem_iff.1 hs) fun _ => False.elim
    exact absurd hblocked (hfree r (hperm.mem_iff.2 hr))

/-- **Rules with different identifiers cannot be arranged exactly if some of them are blocked.**
What is reported goes by the first blocked rule, and it names the cause exactly if there is a circle
among the rules or that rule has a missing parent of its own. -/
theorem fails_exactly (hdistinct : (rules.map Rule.id).Nodup) :
    ((∃ e, arrange rules = .error e) ↔ ∃ r ∈ rules, Blocked rules r.id) ∧
      ∀ e, arrange rules = .error e → ∃ first, FirstBlocked rules first ∧ Reports rules first e ∧
        (NamesCause rules e ↔
          (∃ k, TransGen (Names rules) k k) ∨ ∃ k ∈ first.parentIds, Missing rules k) := by
  constructor
  · constructor
    · rintro ⟨e, h⟩
      obtain ⟨first, hfirst, -⟩ := reports_of_error hdistinct h
      exact ⟨first, hfirst.mem, hfirst.blocked⟩
    · rintro ⟨r, hr, hblocked⟩
      exact exists_error_of_blocked hdistinct hr hblocked
  · intro e h
    obtain ⟨first, hfirst, he⟩ := reports_of_error hdistinct h
    exact ⟨first, hfirst, he, he.namesCause_iff hfirst.mem⟩

/-- A rule with a missing parent, and behind it a rule that names the first one. -/
def orphans : List Rule :=
  [.new default "wire" "wire" [⟨∅, .ofList ["agency"]⟩],
    .new default "desk" "desk" [⟨∅, .ofList ["wire"]⟩]]

theorem arrange_of_stuck {rest : List Rule} (h : (ready ∅ (first :: rest)).isEmpty = true) :
    arrange (first :: rest) = .error (stuck ∅ (first :: rest) first) :=
  arrangeFrom_of_stuck (List.head?_eq_none_iff.2 (List.isEmpty_iff.1 h))

theorem fails_exactly_orphans : (orphans.map Rule.id).Nodup ∧
    arrange orphans = .error (.ruleNotFound "agency") ∧
    ∃ first, FirstBlocked orphans first ∧ Reports orphans first (.ruleNotFound "agency") ∧
      (NamesCause orphans (.ruleNotFound "agency") ↔
        (∃ k, TransGen (Names orphans) k k) ∨ ∃ k ∈ first.parentIds, Missing orphans k) := by
  have hdistinct : (orphans.map Rule.id).Nodup := by decide
  have herror : arrange orphans = .error (.ruleNotFound "agency") :=
    (arrange_of_stuck (by decide +kernel)).trans rfl
  exact ⟨hdistinct, herror, (fails_exactly hdistinct).2 _ herror⟩

theorem leads_in_orphans (h : TransGen (Names orphans.reverse) u k) :
    (u = "desk" ∧ k ≠ "desk") ∨ (u = "wire" ∧ k = "agency") := by
  have hnames : ∀ {u k}, Names orphans.reverse u k →
      (u = "desk" ∧ k = "wire") ∨ (u = "wire" ∧ k = "agency") := by
    rintro u k ⟨r, hr, rfl, hk⟩
    obtain ⟨c, hc, hk⟩ := mem_parentIds.1 hk
    simp only [orphans, List.reverse_cons, List.reverse_nil, List.nil_append, List.cons_append,
      List.mem_cons, List.not_mem_nil, or_false] at hr
    rcases hr with rfl | rfl
    all_goals
      obtain rfl := List.mem_singleton.1 hc
      simpa [Rule.new, IdSet.mem_ofList] using hk
  induction h with
  | single h =>
    rcases hnames h with ⟨rfl, rfl⟩ | ⟨rfl, rfl⟩
    · exact Or.inl ⟨rfl, by decide⟩
    · exact Or.inr ⟨rfl, rfl⟩
  | tail _ h ih =>
    rcases hnames h with ⟨rfl, rfl⟩ | ⟨rfl, rfl⟩
    · simp at ih
    · exact ih.imp (fun ih => ⟨ih.1, by decide⟩) fun ih => ⟨ih.1, rfl⟩

/-- **The same rules in the other order are reported as a circle**, and there is none. -/
theorem misreported_circle : (orphans.reverse.map Rule.id).Nodup ∧
    (∀ k, ¬TransGen (Names orphans.reverse) k k) ∧
    (∃ r ∈ orphans.reverse, "agency" ∈ r.parentIds) ∧ Missing orphans.reverse "agency" ∧
    arrange orphans.reverse = .error (.cycle ["desk", "wire"]) ∧
    ¬NamesCause orphans.reverse (.cycle ["desk", "wire"]) := by
  have hacyclic : ∀ k, ¬TransGen (Names orphans.reverse) k k := by
    intro k hk
    rcases leads_in_orphans hk with ⟨hdesk, hno⟩ | ⟨rfl, hno⟩
    · exact hno hdesk
    · exact absurd hno (by decide)
  have hmissing : "agency" ∉ orphans.reverse.map Rule.id := by decide
  refine ⟨by decide, hacyclic, by decide +kernel, hmissing,
    (arrange_of_stuck (by decide +kernel)).trans rfl, fun hcause => ?_⟩
  obtain ⟨k, hk⟩ := hcause.2 _ rfl
  exact hacyclic k hk

end Rule

end Newswire
