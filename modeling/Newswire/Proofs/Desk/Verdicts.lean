import Mathlib.Data.List.Induction
import Newswire.Desk.Verdicts

/-!
# What is remembered of verdicts

The memory of verdicts is used step by step: a verdict is looked up or handed in, and some rules or
everything is forgotten.  A verdict is handed in with the generation in which its decision began.

* `Verdicts.TakesIn` : a verdict of the generation is remembered when it is handed in.
* `Verdicts.Keeps` : the step leaves the verdict under a key as it is.
* `Verdicts.peek_step` : what is remembered after a step was taken in by it, or was remembered
  before it and kept.
* `Verdicts.Kept` : a run of steps ends with a verdict that was taken in and then kept, and this is
  what is remembered (`Verdicts.peek_after_iff`).
* `Verdicts.Slim` : no more verdicts are remembered than allowed, and one for each key.
* `Verdicts.remembers_after` : **the memory is a bounded map that answers what was last put in**,
  and a verdict from before a change does not come in any more.
-/

namespace Newswire

namespace Verdicts

variable {v w : Verdicts} {key k : VerdictKey} {verdict found : Bool} {generation : Nat}
  {rules : IdSet} {settings : CacheSettings}

/-! ### Single operations -/

theorem mem_entries_of_get (h : (v.get key).1 = some verdict) : (key, verdict) ∈ v.entries := by
  unfold get at h
  split at h
  · cases h
  · split at h
    · next verdict' hpeek =>
      obtain rfl := Option.some.inj h
      obtain ⟨before, after, hentries, -⟩ := List.lookup_eq_some_iff.1 hpeek
      rw [hentries]
      simp
    · cases h

theorem entries_get (v : Verdicts) (key : VerdictKey) : (v.get key).2.entries = v.entries := by
  unfold get
  split
  · rfl
  · split <;> rfl

theorem mem_entries_put (h : (k, found) ∈ (v.put key verdict generation).entries) :
    (k = key ∧ found = verdict) ∨ (k, found) ∈ v.entries := by
  unfold put at h
  split at h
  · exact Or.inr h
  · rcases List.mem_cons.1 h with h | h
    · exact Or.inl (Prod.mk.inj h)
    · have hkept := (List.mem_filter.1 h).1
      split at hkept
      · cases hkept
      · exact Or.inr hkept

theorem mem_entries_forget (h : (k, found) ∈ (v.forget rules).entries) :
    (k, found) ∈ v.entries ∧ k.rule ∉ rules := by
  unfold forget at h
  split at h
  · next hempty => exact ⟨h, IdSet.isEmpty_iff.1 hempty k.rule⟩
  · obtain ⟨hmem, hkept⟩ := List.mem_filter.1 h
    refine ⟨hmem, fun hrule => ?_⟩
    have hcontains : rules.contains k.rule = true := hrule
    simp [hcontains] at hkept

theorem settings_get (v : Verdicts) (key : VerdictKey) : (v.get key).2.settings = v.settings := by
  unfold get
  split
  · rfl
  · split <;> rfl

theorem settings_put (v : Verdicts) (key : VerdictKey) (w : Bool) (generation : Nat) :
    (v.put key w generation).settings = v.settings := by
  unfold put
  split <;> rfl

theorem settings_forget (v : Verdicts) (rules : IdSet) :
    (v.forget rules).settings = v.settings := by
  unfold forget
  split <;> rfl

theorem get_of_some (henabled : v.settings.enabled = true) (h : v.peek key = some verdict) :
    v.get key = (some verdict, { v with hits := v.hits + 1 }) := by
  simp [get, henabled, h]

theorem get_of_none (henabled : v.settings.enabled = true) (h : v.peek key = none) :
    v.get key = (none, { v with misses := v.misses + 1 }) := by
  simp [get, henabled, h]

theorem peek_put (henabled : v.settings.enabled = true) (hmax : v.settings.maxEntries ≠ 0) :
    (v.put key verdict v.generation).peek key = some verdict := by
  simp [put, peek, henabled, hmax]

theorem peek_get (v : Verdicts) (k key : VerdictKey) : (v.get k).2.peek key = v.peek key := by
  unfold peek
  rw [entries_get]

theorem generation_get (v : Verdicts) (key : VerdictKey) :
    (v.get key).2.generation = v.generation := by
  unfold get
  split
  · rfl
  · split <;> rfl

theorem generation_put (v : Verdicts) (key : VerdictKey) (w : Bool) (generation : Nat) :
    (v.put key w generation).generation = v.generation := by
  unfold put
  split <;> rfl

theorem lookup_filter_key {p : VerdictKey → Bool} (entries : List (VerdictKey × Bool)) :
    (entries.filter fun (k, _) => p k).lookup key =
      if p key then entries.lookup key else none := by
  induction entries with
  | nil => simp
  | cons e rest ih =>
    obtain ⟨k, found⟩ := e
    by_cases hk : key = k
    · subst hk
      cases hp : p key with
      | true => simp [hp]
      | false => simpa [hp] using ih
    · have hne : (key == k) = false := beq_eq_false_iff_ne.2 hk
      cases hp : p k with
      | true => simpa [hp, List.lookup_cons, hne] using ih
      | false => simpa [hp, List.lookup_cons, hne] using ih

/-! ### Taking verdicts in -/

/-- A verdict that was found in the generation is remembered when it is handed in. -/
def TakesIn (v : Verdicts) (generation : Nat) : Prop :=
  v.settings.enabled = true ∧ v.settings.maxEntries ≠ 0 ∧ generation = v.generation

theorem put_of_not_takesIn (h : ¬v.TakesIn generation) : v.put key verdict generation = v := by
  unfold put
  refine if_pos ?_
  by_cases henabled : v.settings.enabled = true
  · by_cases hmax : v.settings.maxEntries = 0
    · simp [hmax]
    · have hgeneration : generation ≠ v.generation := fun heq => h ⟨henabled, hmax, heq⟩
      simp [hgeneration]
  · simp [henabled]

theorem put_of_takesIn (h : v.TakesIn generation) :
    v.put key verdict generation =
      { v with
        entries := (key, verdict) ::
          (if v.settings.maxEntries ≤ v.size then [] else v.entries).filter fun (k, _) =>
            k != key } := by
  obtain ⟨henabled, hmax, hgeneration⟩ := h
  unfold put
  refine if_neg ?_
  simp [henabled, hmax, hgeneration]

/-! ### Steps -/

/-- What is done with a memory. -/
inductive Step where
  /-- The verdict for a key is looked up. -/
  | get (key : VerdictKey)
  /-- A verdict is handed in that was found in a generation. -/
  | put (key : VerdictKey) (verdict : Bool) (generation : Nat)
  /-- Everything about some rules is forgotten. -/
  | forget (rules : IdSet)
  /-- Everything is forgotten. -/
  | clear

/-- The memory after a step. -/
def step (v : Verdicts) : Step → Verdicts
  | .get key => (v.get key).2
  | .put key verdict generation => v.put key verdict generation
  | .forget rules => v.forget rules
  | .clear => v.clear

/-- The memory after a run of steps. -/
def after (v : Verdicts) (steps : List Step) : Verdicts := steps.foldl step v

/-- Something may be forgotten for a change: everything, or what is about some rule. -/
def Step.Forgets : Step → Prop
  | .clear => True
  | .forget rules => ∃ id, id ∈ rules
  | .get _ | .put .. => False

/-- The step leaves the verdict under the key as it is: nothing about its rule is forgotten, and
nothing is taken in under the key, or by a full memory. -/
def Keeps (v : Verdicts) (key : VerdictKey) : Step → Prop
  | .get _ => True
  | .put k _ generation => v.TakesIn generation → k ≠ key ∧ v.size < v.settings.maxEntries
  | .forget rules => key.rule ∉ rules
  | .clear => False

/-- Every step of the run leaves the verdict under the key as it is. -/
def KeepsAll (v : Verdicts) (key : VerdictKey) : List Step → Prop
  | [] => True
  | s :: rest => v.Keeps key s ∧ (v.step s).KeepsAll key rest

variable {s : Step} {steps : List Step}

theorem after_append (v : Verdicts) (before rest : List Step) :
    v.after (before ++ rest) = (v.after before).after rest :=
  List.foldl_append

theorem after_concat (v : Verdicts) (steps : List Step) (s : Step) :
    v.after (steps ++ [s]) = (v.after steps).step s := by
  rw [after_append]
  rfl

theorem keepsAll_concat : v.KeepsAll key (steps ++ [s]) ↔
    v.KeepsAll key steps ∧ (v.after steps).Keeps key s := by
  induction steps generalizing v with
  | nil => exact and_comm
  | cons t rest ih =>
    show v.Keeps key t ∧ (v.step t).KeepsAll key (rest ++ [s]) ↔ _
    rw [ih, ← and_assoc]
    rfl

theorem settings_step (v : Verdicts) (s : Step) : (v.step s).settings = v.settings := by
  cases s with
  | get key => exact settings_get v key
  | put key verdict generation => exact settings_put v key verdict generation
  | forget rules => exact settings_forget v rules
  | clear => rfl

theorem settings_after (v : Verdicts) (steps : List Step) :
    (v.after steps).settings = v.settings := by
  induction steps generalizing v with
  | nil => rfl
  | cons s rest ih => exact (ih (v.step s)).trans (settings_step v s)

/-! ### What is remembered after a step -/

/-- After a verdict was handed in, it is remembered if it was taken in, and all else is as before
unless the memory was full. -/
theorem peek_put_iff : (v.put k found generation).peek key = some verdict ↔
    (k = key ∧ found = verdict ∧ v.TakesIn generation) ∨
      (v.Keeps key (.put k found generation) ∧ v.peek key = some verdict) := by
  by_cases htakes : v.TakesIn generation
  · rw [put_of_takesIn htakes]
    by_cases hk : k = key
    · subst hk
      simp [peek, Keeps, htakes]
    · have hne : (key == k) = false := beq_eq_false_iff_ne.2 (Ne.symm hk)
      have hkept : (key != k) = true := bne_iff_ne.2 (Ne.symm hk)
      have hother : (if v.settings.maxEntries ≤ v.size then [] else v.entries).lookup key =
          some verdict ↔ v.size < v.settings.maxEntries ∧ v.peek key = some verdict := by
        by_cases hfull : v.settings.maxEntries ≤ v.size
        · simp [hfull, Nat.not_lt.2 hfull]
        · simp [hfull, Nat.not_le.1 hfull, peek]
      show List.lookup key ((k, found) :: _) = _ ↔ _
      rw [List.lookup_cons, hne]
      show List.lookup key (List.filter _ _) = _ ↔ _
      rw [lookup_filter_key (p := fun x => x != k), if_pos hkept, hother]
      simp [Keeps, htakes, hk]
  · simp [put_of_not_takesIn htakes, Keeps, htakes]

theorem peek_put_of_lt (htakes : v.TakesIn generation) (hroom : v.size < v.settings.maxEntries) :
    (v.put k found generation).peek key = if k = key then some found else v.peek key := by
  refine Option.ext fun verdict => ?_
  rw [peek_put_iff]
  by_cases hk : k = key <;> simp [hk, htakes, hroom, Keeps]

theorem peek_forget_iff : (v.forget rules).peek key = some verdict ↔
    key.rule ∉ rules ∧ v.peek key = some verdict := by
  unfold forget
  split
  · next hempty => simp [IdSet.isEmpty_iff.1 hempty key.rule]
  · show (v.entries.filter fun (k, _) => !rules.contains k.rule).lookup key = _ ↔ _
    rw [lookup_filter_key (p := fun k => !rules.contains k.rule)]
    by_cases hrule : key.rule ∈ rules
    · have hcontains : rules.contains key.rule = true := hrule
      simp [hcontains, hrule]
    · have hcontains : rules.contains key.rule = false := Bool.eq_false_iff.2 hrule
      simp [hcontains, hrule, peek]

/-- **What is remembered after a step was taken in by it, or was remembered before and kept.** -/
theorem peek_step : (v.step s).peek key = some verdict ↔
    (∃ generation, s = .put key verdict generation ∧ v.TakesIn generation) ∨
      (v.Keeps key s ∧ v.peek key = some verdict) := by
  cases s with
  | get k =>
    show (v.get k).2.peek key = _ ↔ _
    simp [peek_get, Keeps]
  | put k found generation =>
    show (v.put k found generation).peek key = _ ↔ _
    rw [peek_put_iff]
    simp only [Step.put.injEq]
    refine or_congr_left ⟨?_, ?_⟩
    · rintro ⟨rfl, rfl, h⟩
      exact ⟨generation, ⟨rfl, rfl, rfl⟩, h⟩
    · rintro ⟨_, ⟨rfl, rfl, rfl⟩, h⟩
      exact ⟨rfl, rfl, h⟩
  | forget rules =>
    show (v.forget rules).peek key = _ ↔ _
    simp [peek_forget_iff, Keeps]
  | clear => simp [step, clear, peek, Keeps]

/-! ### What is remembered after a run -/

/-- The verdict was taken in under the key in the course of the run and has been kept since. -/
def Kept (v : Verdicts) (steps : List Step) (key : VerdictKey) (verdict : Bool) : Prop :=
  ∃ before generation rest, steps = before ++ .put key verdict generation :: rest ∧
    (v.after before).TakesIn generation ∧
      (v.after (before ++ [.put key verdict generation])).KeepsAll key rest

theorem not_kept_nil : ¬v.Kept [] key verdict := by
  rintro ⟨before, generation, rest, h, -⟩
  simp at h

theorem kept_concat : v.Kept (steps ++ [s]) key verdict ↔
    (∃ generation, s = .put key verdict generation ∧ (v.after steps).TakesIn generation) ∨
      ((v.after steps).Keeps key s ∧ v.Kept steps key verdict) := by
  constructor
  · rintro ⟨before, generation, rest, hsteps, htakes, hkeeps⟩
    -- the verdict was taken in by the last step, or before it
    rcases List.eq_nil_or_concat rest with rfl | ⟨rest, t, rfl⟩
    · obtain ⟨rfl, hs⟩ := List.append_inj' hsteps rfl
      obtain rfl := List.singleton_inj.1 hs
      exact Or.inl ⟨generation, rfl, htakes⟩
    · have hsplit : steps ++ [s] = (before ++ .put key verdict generation :: rest) ++ [t] := by
        simpa using hsteps
      obtain ⟨rfl, hs⟩ := List.append_inj' hsplit rfl
      obtain rfl := List.singleton_inj.1 hs
      rw [List.concat_eq_append] at hkeeps
      obtain ⟨hrest, hlast⟩ := keepsAll_concat.1 hkeeps
      rw [← after_append, List.append_assoc] at hlast
      exact Or.inr ⟨hlast, before, generation, rest, rfl, htakes, hrest⟩
  · rintro (⟨generation, rfl, htakes⟩ | ⟨hkeeps, before, generation, rest, rfl, htakes, hrest⟩)
    · exact ⟨steps, generation, [], rfl, htakes, trivial⟩
    · refine ⟨before, generation, rest ++ [s], by simp, htakes, keepsAll_concat.2 ⟨hrest, ?_⟩⟩
      rwa [← after_append, List.append_assoc]

/-- **What is remembered after a run is what was taken in and kept.** -/
theorem peek_after_iff : ((new settings).after steps).peek key = some verdict ↔
    (new settings).Kept steps key verdict := by
  induction steps using List.reverseRecOn with
  | nil => exact iff_of_false (fun h => nomatch h) not_kept_nil
  | append_singleton steps s ih => rw [after_concat, peek_step, kept_concat, ih]

/-! ### How much is remembered -/

theorem size_put_le (v : Verdicts) (key : VerdictKey) (verdict : Bool) (generation : Nat) :
    (v.put key verdict generation).size ≤ v.size + 1 := by
  by_cases htakes : v.TakesIn generation
  · rw [put_of_takesIn htakes]
    refine Nat.succ_le_succ (Nat.le_trans (List.length_filter_le ..) ?_)
    split
    · exact Nat.zero_le _
    · exact Nat.le_refl _
  · rw [put_of_not_takesIn htakes]
    exact Nat.le_succ _

/-- The memory is within its bounds, and has one verdict for each key. -/
structure Slim (v : Verdicts) : Prop where
  /-- No more verdicts are remembered than allowed. -/
  size_le : v.size ≤ v.settings.maxEntries
  /-- Without a memory nothing is remembered. -/
  disabled : v.settings.enabled = false → v.size = 0
  /-- No key occurs twice. -/
  nodup : (v.entries.map Prod.fst).Nodup

theorem slim_new (settings : CacheSettings) : (new settings).Slim :=
  ⟨Nat.zero_le _, fun _ => rfl, List.nodup_nil⟩

theorem Slim.of_sublist (h : v.Slim) (hsettings : w.settings = v.settings)
    (hentries : w.entries.Sublist v.entries) : w.Slim where
  size_le := by
    rw [hsettings]
    exact Nat.le_trans hentries.length_le h.size_le
  disabled henabled := by
    rw [hsettings] at henabled
    exact Nat.le_zero.1 (Nat.le_trans hentries.length_le (Nat.le_of_eq (h.disabled henabled)))
  nodup := h.nodup.sublist (hentries.map Prod.fst)

theorem Slim.put (h : v.Slim) : (v.put key verdict generation).Slim := by
  by_cases htakes : v.TakesIn generation
  · rw [put_of_takesIn htakes]
    obtain ⟨henabled, hmax, -⟩ := htakes
    generalize hkept : (if v.settings.maxEntries ≤ v.size then [] else v.entries) = kept
    -- a full memory is emptied first, so there is room for one more
    have hroom : kept.length < v.settings.maxEntries := by
      by_cases hfull : v.settings.maxEntries ≤ v.size
      · rw [← hkept, if_pos hfull]
        exact Nat.pos_of_ne_zero hmax
      · rw [← hkept, if_neg hfull]
        exact Nat.not_le.1 hfull
    have hsublist : kept.Sublist v.entries := by
      rw [← hkept]
      split
      · exact List.nil_sublist _
      · exact List.Sublist.refl _
    have hother := List.length_filter_le (fun (e : VerdictKey × Bool) => e.1 != key) kept
    refine ⟨?_, fun hdisabled => ?_, ?_⟩
    · show (kept.filter fun e => e.1 != key).length + 1 ≤ v.settings.maxEntries
      omega
    · cases henabled.symm.trans hdisabled
    · refine List.nodup_cons.2 ⟨fun hmem => ?_, ?_⟩
      · obtain ⟨e, he, hkey⟩ := List.mem_map.1 hmem
        have hne := (List.mem_filter.1 he).2
        exact bne_iff_ne.1 hne hkey
      · exact h.nodup.sublist ((List.filter_sublist.trans hsublist).map Prod.fst)
  · rwa [put_of_not_takesIn htakes]

theorem Slim.step (h : v.Slim) (s : Step) : (v.step s).Slim := by
  cases s with
  | get key =>
    refine h.of_sublist (settings_get v key) ?_
    show (v.get key).2.entries.Sublist v.entries
    simp only [entries_get, List.Sublist.refl]
  | put key verdict generation => exact h.put
  | forget rules =>
    refine h.of_sublist (settings_forget v rules) ?_
    show (v.forget rules).entries.Sublist _
    unfold forget
    split
    · exact List.Sublist.refl _
    · exact List.filter_sublist
  | clear => exact h.of_sublist rfl (List.nil_sublist _)

theorem Slim.after (h : v.Slim) (steps : List Step) : (v.after steps).Slim := by
  induction steps generalizing v with
  | nil => exact h
  | cons s rest ih => exact ih (h.step s)

/-! ### Generations -/

theorem generation_step_le (v : Verdicts) (s : Step) : v.generation ≤ (v.step s).generation := by
  cases s with
  | get key => exact Nat.le_of_eq (generation_get v key).symm
  | put key verdict generation => exact Nat.le_of_eq (generation_put v key verdict generation).symm
  | forget rules =>
    show v.generation ≤ (v.forget rules).generation
    unfold forget
    split
    · exact Nat.le_refl _
    · exact Nat.le_succ _
  | clear => exact Nat.le_succ _

theorem generation_step_lt (h : s.Forgets) : v.generation < (v.step s).generation := by
  cases s with
  | get key => exact h.elim
  | put key verdict generation => exact h.elim
  | forget rules =>
    obtain ⟨id, hid⟩ := h
    have hsome : rules.isEmpty = false :=
      Bool.eq_false_iff.2 fun hempty => IdSet.isEmpty_iff.1 hempty id hid
    show v.generation < (v.forget rules).generation
    simp [forget, hsome]
  | clear => exact Nat.lt_succ_self _

theorem generation_after_le (v : Verdicts) (steps : List Step) :
    v.generation ≤ (v.after steps).generation := by
  induction steps generalizing v with
  | nil => exact Nat.le_refl _
  | cons s rest ih => exact Nat.le_trans (generation_step_le v s) (ih (v.step s))

/-- A generation does not come back once something was forgotten. -/
theorem generation_after_lt (hs : s ∈ steps) (h : s.Forgets) :
    v.generation < (v.after steps).generation := by
  obtain ⟨before, rest, rfl⟩ := List.append_of_mem hs
  rw [after_append]
  calc v.generation
      ≤ (v.after before).generation := generation_after_le v before
    _ < ((v.after before).step s).generation := generation_step_lt h
    _ ≤ ((v.after before).after (s :: rest)).generation := generation_after_le _ rest

/-! ### The memory as a map -/

/-- A memory with the settings after some steps. -/
structure Remembers (settings : CacheSettings) (steps : List Step) : Prop where
  /-- No more verdicts are remembered than allowed. -/
  size_le : ((new settings).after steps).size ≤ settings.maxEntries
  /-- Without a memory nothing is remembered. -/
  disabled : settings.enabled = false → ((new settings).after steps).size = 0
  /-- No key occurs twice. -/
  nodup : (((new settings).after steps).entries.map Prod.fst).Nodup
  /-- The answer is the verdict that was last taken in under the key, if it has been kept. -/
  get_iff : ∀ key verdict, (((new settings).after steps).get key).1 = some verdict ↔
    (new settings).Kept steps key verdict
  /-- A verdict whose decision began before something was forgotten changes nothing. -/
  outdated : ∀ before rest, steps = before ++ rest → (∃ s ∈ rest, s.Forgets) → ∀ key verdict,
    ((new settings).after steps).put key verdict ((new settings).after before).generation =
      (new settings).after steps

theorem Slim.get_eq (h : v.Slim) (key : VerdictKey) : (v.get key).1 = v.peek key := by
  cases henabled : v.settings.enabled with
  | true => cases hpeek : v.peek key with
    | some verdict => rw [get_of_some henabled hpeek]
    | none => rw [get_of_none henabled hpeek]
  | false =>
    have hentries : v.entries = [] := List.length_eq_zero_iff.1 (h.disabled henabled)
    simp [get, henabled, peek, hentries]

/-- **Whatever is done with a memory, it stays within its bounds and answers with what was last
taken in**, as long as that was not emptied out, replaced or forgotten; and what was found before
something was forgotten is not taken in. -/
theorem remembers_after (settings : CacheSettings) (steps : List Step) :
    Remembers settings steps := by
  have hslim := (slim_new settings).after steps
  have hsettings : ((new settings).after steps).settings = settings :=
    settings_after (new settings) steps
  refine ⟨?_, fun hdisabled => ?_, hslim.nodup, fun key verdict => ?_, ?_⟩
  · have hsize := hslim.size_le
    rwa [hsettings] at hsize
  · exact hslim.disabled (by rw [hsettings, hdisabled])
  · rw [hslim.get_eq, peek_after_iff]
  · rintro before rest rfl ⟨s, hs, hforgets⟩ key verdict
    refine put_of_not_takesIn fun htakes => ?_
    have hlater : ((new settings).after before).generation <
        (((new settings).after before).after rest).generation := generation_after_lt hs hforgets
    rw [← after_append] at hlater
    exact Nat.ne_of_lt hlater htakes.2.2

/-- Two verdicts fill the memory, a third empties it, and what was found before the last change is
not taken in. -/
example :
    let key (item : String) : VerdictKey := ⟨"wire", 1, item⟩
    let v := (new ⟨true, 2⟩).after
      [.put (key "a") true 0, .put (key "b") false 0, .put (key "c") true 0,
        .forget (IdSet.ofList ["desk"]), .put (key "a") true 0]
    (v.peek (key "a"), v.peek (key "b"), v.peek (key "c"), v.size) =
      (none, none, some true, 1) := by
  decide +kernel

end Verdicts

end Newswire
