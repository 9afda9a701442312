import Newswire.Proofs.Desk.Integrity
import Newswire.Proofs.Desk.Verdicts

/-!
# Decisions that remember

A decision reads the desk and may look verdicts up and remember new ones.  What comes of it is put
together from its steps, for whatever is known about the remembered verdicts.

* `Verdicts.All` : every remembered verdict is as wanted.
* `Desk.Meets` : with such a memory a decision has an outcome as wanted, and leaves such a memory.  The
  rules follow the way in which decisions are put together (`Desk.Meets.bind`, `Desk.meets_anyM`).
* `Desk.meets_selects` : the one place where a verdict is looked up and remembered.
* `Desk.savedHolds`, `Desk.passes`, `Desk.isServed`, `Desk.isRouted` : the same decisions without
  memory.
* `Desk.Tells` : what may be remembered about an item is what evaluation finds.  **Then every decision
  comes out as without memory** (`Desk.meets_receives`, `Desk.meets_applies`).
-/

namespace Newswire

open Rulebook

namespace Verdicts

variable {v : Verdicts} {key k : VerdictKey} {verdict w : Bool} {rules : IdSet}
  {E E' : VerdictKey → Bool → Prop}

/-! ### What is remembered -/

/-- Every remembered verdict is as wanted. -/
def All (v : Verdicts) (E : VerdictKey → Bool → Prop) : Prop :=
  ∀ key verdict, (key, verdict) ∈ v.entries → E key verdict

theorem all_new (cache : CacheSettings) : (Verdicts.new cache).All E := by
  intro key verdict hmem
  cases hmem

theorem All.get (h : v.All E) (key : VerdictKey) : (v.get key).2.All E := by
  intro k w hmem
  rw [entries_get] at hmem
  exact h k w hmem

theorem All.put (h : v.All E) (hE : E key verdict) (generation : Nat) :
    (v.put key verdict generation).All E := by
  intro k w hmem
  rcases mem_entries_put hmem with ⟨rfl, rfl⟩ | hmem
  · exact hE
  · exact h k w hmem

/-- Verdicts that are kept have to be as wanted only where they are not forgotten. -/
theorem All.forget (h : v.All E) (hE : ∀ {k w}, k.rule ∉ rules → E k w → E' k w) :
    (v.forget rules).All E' := by
  intro k w hmem
  obtain ⟨hmem, hkept⟩ := mem_entries_forget hmem
  exact hE hkept (h k w hmem)

end Verdicts

namespace Desk

variable {α β : Type} {d : Desk} {r : Rule} {item : Json} {id : String}

/-! ### Decisions with memory, step by step -/

theorem run_bind {ε σ : Type} (j : ExceptT ε (StateM σ) α) (k : α → ExceptT ε (StateM σ) β)
    (s : σ) : (j >>= k).run s = match j.run s with
      | (.ok a, t) => (k a).run t
      | (.error e, t) => (.error e, t) := by
  show (match j.run s with | (x, t) => (ExceptT.bindCont k x).run t) = _
  rcases j.run s with ⟨_ | a, t⟩ <;> rfl

theorem run_get (v : Verdicts) : (get : Judging Verdicts).run v = (.ok v, v) := rfl

theorem run_liftM (x : Except RuleError α) (v : Verdicts) :
    (liftM x : Judging α).run v = (x, v) := rfl

theorem run_modifyGet (f : Verdicts → α × Verdicts) (v : Verdicts) :
    (modifyGet f : Judging α).run v = (.ok (f v).1, (f v).2) := rfl

theorem run_judge (v : Verdicts) : (d.judge r item).run v =
    match d.book.holds d.schema item (some r) with
    | .error e => (.error e, v)
    | .ok verdict => (.ok verdict, match verdictKey? v.settings r item with
      | some key => v.put key verdict v.generation
      | none => v) := by
  simp only [judge, run_bind, run_get, run_liftM]
  cases d.book.holds d.schema item (some r) with
  | error e => rfl
  | ok verdict =>
    cases verdictKey? v.settings r item with
    | none => rfl
    | some key => rfl

theorem run_selects (memory : Bool) (v : Verdicts) : (d.selects (some r) item memory).run v =
    match verdictKey? v.settings r item, memory with
    | some key, true => match v.get key with
      | (some verdict, w) => (.ok verdict, w)
      | (none, w) => (d.judge r item).run w
    | _, _ => (d.judge r item).run v := by
  simp only [selects, run_bind, run_get]
  cases verdictKey? v.settings r item with
  | none => rfl
  | some key =>
    cases memory with
    | false => rfl
    | true =>
      simp only [run_bind, run_modifyGet]
      rcases v.get key with ⟨_ | verdict, w⟩ <;> rfl

theorem verdictKey?_eq_some {cache : CacheSettings} {key : VerdictKey}
    (h : verdictKey? cache r item = some key) : r.id ≠ "" ∧ key.rule = r.id ∧
      key.revision = r.revision ∧ Item.id? item = some key.item := by
  unfold verdictKey? at h
  split at h
  · cases h
  · next hid =>
    obtain ⟨i, hi, rfl⟩ := Option.map_eq_some_iff.1 h
    refine ⟨fun hempty => hid ?_, rfl, rfl, hi⟩
    simp [hempty]

/-! ### Outcomes -/

variable {E : VerdictKey → Bool → Prop} {P : Except RuleError α → Prop}
  {Q : Except RuleError β → Prop} {j : Judging α} {k : α → Judging β}

/-- As long as every remembered verdict is as wanted, the outcome of the decision is, and so is what
is remembered after it. -/
def Meets (E : VerdictKey → Bool → Prop) (j : Judging α) (P : Except RuleError α → Prop) : Prop :=
  ∀ v, v.All E → P (j.run v).1 ∧ (j.run v).2.All E

theorem meets_liftM {x : Except RuleError α} (hx : P x) : Meets E (liftM x) P :=
  fun _ hv => ⟨hx, hv⟩

theorem meets_pure {a : α} (ha : P (.ok a)) : Meets E (pure a) P := meets_liftM ha

theorem meets_throw {e : RuleError} (he : P (.error e)) : Meets E (throw e : Judging α) P :=
  meets_liftM he

/-- What follows a decision matters only when the decision has an outcome to go on with. -/
theorem Meets.bind (hj : Meets E j P) (herror : ∀ e, P (.error e) → Q (.error e))
    (hok : ∀ a, P (.ok a) → Meets E (k a) Q) : Meets E (j >>= k) Q := by
  intro v hv
  obtain ⟨hx, hw⟩ := hj v hv
  rw [run_bind]
  generalize j.run v = z at hx hw ⊢
  obtain ⟨out, w⟩ := z
  cases out with
  | error e => exact ⟨herror e hx, hw⟩
  | ok a => exact hok a hx w hw

theorem Meets.bind_eq {x : Except RuleError α} {y : α → Except RuleError β}
    (hj : Meets E j (· = x)) (hk : ∀ a, x = .ok a → Meets E (k a) (· = y a)) :
    Meets E (j >>= k) (· = x >>= y) := by
  refine hj.bind (fun e he => ?_) fun a ha => ?_
  · subst he
    rfl
  · subst ha
    exact hk a rfl

theorem Meets.map_eq {x : Except RuleError α} (hj : Meets E j (· = x)) (f : α → β) :
    Meets E (do return f (← j)) (· = f <$> x) := by
  have hmap : f <$> x = x >>= fun a => .ok (f a) := by cases x <;> rfl
  rw [hmap]
  exact hj.bind_eq fun a _ => meets_pure rfl

theorem meets_anyM_eq {xs : List α} {f : α → Judging Bool} {g : α → Except RuleError Bool}
    (h : ∀ a ∈ xs, Meets E (f a) (· = g a)) : Meets E (xs.anyM f) (· = xs.anyM g) := by
  induction xs with
  | nil => exact meets_pure rfl
  | cons a xs ih =>
    refine (h a List.mem_cons_self).bind_eq fun found _ => ?_
    cases found with
    | true => exact meets_pure rfl
    | false => exact ih fun b hb => h b (List.mem_cons_of_mem _ hb)

theorem meets_filterM_eq {xs : List α} {f : α → Judging Bool} {g : α → Except RuleError Bool}
    (h : ∀ a ∈ xs, Meets E (f a) (· = g a)) : Meets E (xs.filterM f) (· = xs.filterM g) := by
  -- the elements are collected in reverse, whatever was collected before them
  have haux : ∀ acc, Meets E (xs.filterAuxM f acc) (· = xs.filterAuxM g acc) := by
    induction xs with
    | nil => exact fun acc => meets_pure rfl
    | cons a xs ih =>
      intro acc
      refine (h a List.mem_cons_self).bind_eq fun kept _ => ?_
      exact ih (fun b hb => h b (List.mem_cons_of_mem _ hb)) _
  exact (haux []).bind_eq fun kept _ => meets_pure rfl

/-! ### A rule selects an item -/

variable {P : Except RuleError Bool → Prop}

theorem meets_judge (hfresh : P (d.book.holds d.schema item (some r)))
    (hnew : ∀ {cache key verdict}, verdictKey? cache r item = some key →
      d.book.holds d.schema item (some r) = .ok verdict → E key verdict) :
    Meets E (d.judge r item) P := by
  intro v hv
  rw [run_judge]
  generalize d.book.holds d.schema item (some r) = x at hfresh hnew ⊢
  cases x with
  | error e => exact ⟨hfresh, hv⟩
  | ok verdict =>
    refine ⟨hfresh, ?_⟩
    cases hkey : verdictKey? v.settings r item with
    | none => exact hv
    | some key => exact hv.put (hnew hkey rfl) v.generation

/-- **A rule is evaluated, or a verdict is taken that is remembered for it**; in the first case the
verdict is remembered. -/
theorem meets_selects (hfresh : P (d.book.holds d.schema item (some r)))
    (hnew : ∀ {cache key verdict}, verdictKey? cache r item = some key →
      d.book.holds d.schema item (some r) = .ok verdict → E key verdict)
    (hold : ∀ {cache key verdict}, verdictKey? cache r item = some key → E key verdict →
      P (.ok verdict)) (memory : Bool) : Meets E (d.selects (some r) item memory) P := by
  intro v hv
  have hjudge : Meets E (d.judge r item) P := meets_judge hfresh hnew
  rw [run_selects]
  cases hkey : verdictKey? v.settings r item with
  | none => exact hjudge v hv
  | some key =>
    cases memory with
    | false => exact hjudge v hv
    | true =>
      have hw := hv.get key
      have hfound := @Verdicts.mem_entries_of_get v key
      show P (match v.get key with
        | (some verdict, w) => (.ok verdict, w)
        | (none, w) => (d.judge r item).run w : Except RuleError Bool × Verdicts).1 ∧
        (match v.get key with
        | (some verdict, w) => (.ok verdict, w)
        | (none, w) => (d.judge r item).run w : Except RuleError Bool × Verdicts).2.All E
      generalize v.get key = got at hw hfound ⊢
      obtain ⟨found, w⟩ := got
      cases found with
      | none => exact hjudge w hw
      | some verdict => exact ⟨hold hkey (hv key verdict (hfound rfl)), hw⟩

/-! ### Decisions made anew -/

/-- A saved rule selects the item. -/
def savedHolds (d : Desk) (id : String) (item : Json) : Except RuleError Bool := do
  d.book.holds d.schema item (some (← d.book.rule id))

/-- A product passes an item on. -/
def passes (d : Desk) (p : Product) (item : Json) : Except RuleError Bool :=
  match p.rule with
  | none => .ok true
  | some use => use.admission.accepts <$> d.savedHolds use.ruleId item

/-- A subscriber gets an item. -/
def isServed (d : Desk) (id : String) (item : Json) : Except RuleError Bool :=
  match d.distribution.subscribers.get? id with
  | none => .error (.notFound .subscriber id)
  | some s =>
    if s.isActive then (d.distribution.productsOf s).anyM fun p => d.passes p item else .ok false

/-- A route applies to an item. -/
def isRouted (d : Desk) (id : String) (item : Json) : Except RuleError Bool :=
  match d.distribution.routes.get? id with
  | none => .error (.notFound .route id)
  | some route => match route.ruleId with
    | none => .ok true
    | some ruleId => d.savedHolds ruleId item

/-! ### Memories that tell the truth -/

/-- What is wanted of the verdicts on saved rules and the item is what evaluation finds. -/
structure Tells (d : Desk) (E : VerdictKey → Bool → Prop) (item : Json) : Prop where
  /-- A verdict under a key of a saved rule is as wanted exactly if it is found. -/
  iff_holds : ∀ {r cache key verdict}, d.book.rules.get? r.id = some r →
    verdictKey? cache r item = some key →
      (E key verdict ↔ d.book.holds d.schema item (some r) = .ok verdict)

/-- **A saved rule selects what evaluation says.** -/
theorem Tells.meets_selects (h : d.Tells E item) (hr : d.book.rules.get? r.id = some r)
    (memory : Bool) :
    Meets E (d.selects (some r) item memory) (· = d.book.holds d.schema item (some r)) :=
  Desk.meets_selects (P := (· = d.book.holds d.schema item (some r))) rfl
    (fun hkey => (h.iff_holds hr hkey).2) (fun hkey hE => ((h.iff_holds hr hkey).1 hE).symm) memory

theorem Tells.meets_savedSelects (h : d.Tells E item) (hb : d.book.WellFormed) (memory : Bool) :
    Meets E (d.savedSelects id item memory) (· = d.savedHolds id item) := by
  refine Meets.bind_eq (meets_liftM rfl) fun r hr => ?_
  have hsaved := rule_eq_ok_iff.1 hr
  obtain rfl := hb.id_eq hsaved
  exact h.meets_selects hsaved memory

theorem Tells.meets_accepts (h : d.Tells E item) (hb : d.book.WellFormed) (p : Product) :
    Meets E (d.accepts p item) (· = d.passes p item) := by
  unfold accepts passes
  cases p.rule with
  | none => exact meets_pure rfl
  | some use => exact (h.meets_savedSelects hb true).map_eq use.admission.accepts

theorem Tells.meets_receives (h : d.Tells E item) (hb : d.book.WellFormed) :
    Meets E (d.receives id item) (· = d.isServed id item) := by
  unfold receives isServed
  cases d.distribution.subscribers.get? id with
  | none => exact meets_throw rfl
  | some s =>
    cases hactive : s.isActive with
    | true =>
      simp only [hactive]
      exact meets_anyM_eq fun p _ => h.meets_accepts hb p
    | false =>
      simp only [hactive]
      exact meets_pure rfl

theorem Tells.meets_applies (h : d.Tells E item) (hb : d.book.WellFormed) :
    Meets E (d.applies id item) (· = d.isRouted id item) := by
  unfold applies isRouted
  cases d.distribution.routes.get? id with
  | none => exact meets_throw rfl
  | some route =>
    cases hrule : route.ruleId with
    | none => simp only [hrule]; exact meets_pure rfl
    | some ruleId => simp only [hrule]; exact h.meets_savedSelects hb true

end Desk

end Newswire
