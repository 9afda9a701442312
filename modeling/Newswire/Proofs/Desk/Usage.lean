import Newswire.Proofs.Desk.Vocabulary

/-!
# How a desk uses its memory

All that a desk does with its memory is looking verdicts up, handing them in, and forgetting some or
all of them.  So what holds of the memory after every run of such steps holds of the memory of every
desk, whatever it is asked.

* `Verdicts.Becomes` : one memory becomes another by some steps.
* `Desk.Proper` : a decision takes some steps.  Decisions that are put together from proper ones are
  proper (`Desk.Proper.bind`, `Desk.proper_anyM`).
* `Desk.becomes_afterEvents` : **the memory of a desk is one after some steps**, with the settings
  that the desk was made with (`Desk.settings_afterEvents`) and within its bounds
  (`Desk.slim_afterEvents`).
-/

namespace Newswire

namespace Verdicts

variable {u v w : Verdicts}

/-- By some steps, a memory becomes another. -/
def Becomes (v w : Verdicts) : Prop := ∃ steps, w = v.after steps

theorem becomes_refl (v : Verdicts) : v.Becomes v := ⟨[], rfl⟩

theorem becomes_step (v : Verdicts) (s : Step) : v.Becomes (v.step s) := ⟨[s], rfl⟩

theorem Becomes.trans (huv : u.Becomes v) (hvw : v.Becomes w) : u.Becomes w := by
  obtain ⟨before, rfl⟩ := huv
  obtain ⟨rest, rfl⟩ := hvw
  exact ⟨before ++ rest, (after_append u before rest).symm⟩

end Verdicts

namespace Desk

open Verdicts

variable {α β : Type} {j : Judging α} {k : α → Judging β}

/-! ### Decisions -/

/-- The decision does nothing to the memory but take some steps. -/
def Proper (j : Judging α) : Prop := ∀ v : Verdicts, v.Becomes (j.run v).2

theorem proper_liftM (x : Except RuleError α) : Proper (liftM x) := becomes_refl

theorem Proper.bind (hj : Proper j) (hk : ∀ a, Proper (k a)) : Proper (j >>= k) := by
  intro v
  have hv := hj v
  rw [run_bind]
  generalize j.run v = out at hv ⊢
  obtain ⟨x, w⟩ := out
  cases x with
  | error e => exact hv
  | ok a => exact hv.trans (hk a w)

theorem Proper.told (hj : Proper j) (f : α → β) : Proper (do return f (← j)) :=
  hj.bind fun a => proper_liftM (.ok (f a))

theorem proper_anyM {xs : List α} {f : α → Judging Bool} (h : ∀ a, Proper (f a)) :
    Proper (xs.anyM f) := by
  induction xs with
  | nil => exact proper_liftM (.ok false)
  | cons a xs ih =>
    refine (h a).bind fun found => ?_
    cases found with
    | true => exact proper_liftM (.ok true)
    | false => exact ih

theorem proper_judge (d : Desk) (r : Rule) (item : Json) : Proper (d.judge r item) := by
  intro v
  rw [run_judge]
  cases d.book.holds d.schema item (some r) with
  | error e => exact becomes_refl v
  | ok verdict =>
    cases verdictKey? v.settings r item with
    | none => exact becomes_refl v
    | some key => exact becomes_step v (.put key verdict v.generation)

theorem proper_selects (d : Desk) (r : Option Rule) (item : Json) (memory : Bool) :
    Proper (d.selects r item memory) := by
  cases r with
  | none => exact proper_liftM (.ok true)
  | some r =>
    intro v
    rw [run_selects]
    cases verdictKey? v.settings r item with
    | none => exact proper_judge d r item v
    | some key =>
      cases memory with
      | false => exact proper_judge d r item v
      | true =>
        have hget : v.Becomes (v.get key).2 := becomes_step v (.get key)
        dsimp only
        generalize v.get key = got at hget ⊢
        obtain ⟨found, w⟩ := got
        cases found with
        | none => exact hget.trans (proper_judge d r item w)
        | some verdict => exact hget

theorem proper_savedSelects (d : Desk) (id : String) (item : Json) (memory : Bool) :
    Proper (d.savedSelects id item memory) :=
  (proper_liftM _).bind fun r => proper_selects d (some r) item memory

theorem proper_accepts (d : Desk) (p : Product) (item : Json) : Proper (d.accepts p item) := by
  unfold accepts
  cases p.rule with
  | none => exact proper_liftM (.ok true)
  | some use => exact (proper_savedSelects d use.ruleId item true).told _

theorem proper_receives (d : Desk) (id : String) (item : Json) : Proper (d.receives id item) := by
  unfold receives
  cases d.distribution.subscribers.get? id with
  | none => exact proper_liftM (.error _)
  | some s =>
    cases hactive : s.isActive with
    | true =>
      simp only [hactive]
      exact proper_anyM fun p => proper_accepts d p item
    | false =>
      simp only [hactive]
      exact proper_liftM (.ok false)

theorem proper_applies (d : Desk) (id : String) (item : Json) : Proper (d.applies id item) := by
  unfold applies
  cases d.distribution.routes.get? id with
  | none => exact proper_liftM (.error _)
  | some route =>
    cases hrule : route.ruleId with
    | none => simp only [hrule]; exact proper_liftM (.ok true)
    | some ruleId => simp only [hrule]; exact proper_savedSelects d ruleId item true

/-- A list is filtered with a memory of its own; all other questions use that of the desk. -/
theorem proper_answer (d : Desk) (q : Question) : Proper (d.answer q) := by
  cases q with
  | selects r item memory => exact (proper_selects d r item memory).told _
  | savedSelects id item memory => exact (proper_savedSelects d id item memory).told _
  | filterItems id items => exact (proper_liftM (d.filterItems id items)).told _
  | receives id item => exact (proper_receives d id item).told _
  | applies id item => exact (proper_applies d id item).told _

/-! ### Events -/

variable {d d' : Desk}

theorem verdicts_changeBook {c : BookChange} {a : Answer} (h : d.changeBook c = .ok (a, d')) :
    d'.verdicts = d.verdicts := by
  cases c with
  | saveCondition c =>
    obtain ⟨book, -, ⟨⟩⟩ := bind_eq_ok_iff.1 h
    rfl
  | saveRule now r =>
    obtain ⟨⟨saved, book⟩, -, ⟨⟩⟩ := bind_eq_ok_iff.1 h
    rfl

theorem Orderly.becomes_perform (h : d.Orderly) (q : Request) :
    d.verdicts.Becomes (d.perform q).2.verdicts := by
  cases q with
  | change c =>
    refine settle_induction (P := fun d' => d.verdicts.Becomes d'.verdicts) (fun a d' hc => ?_)
      (becomes_refl d.verdicts)
    obtain ⟨concerned, heffect⟩ := change_effect h.1 hc
    rw [heffect.verdicts]
    exact becomes_step d.verdicts (.forget concerned)
  | changeBook c =>
    refine settle_induction (P := fun d' => d.verdicts.Becomes d'.verdicts) (fun a d' hc => ?_)
      (becomes_refl d.verdicts)
    rw [verdicts_changeBook hc]
    exact becomes_refl d.verdicts
  | ask q => exact proper_answer d q d.verdicts

theorem Orderly.becomes_undergo (h : d.Orderly) (e : Event) :
    d.verdicts.Becomes (d.undergo e).verdicts := by
  cases e with
  | request q => exact h.becomes_perform q
  | putVocabulary | removeVocabulary => exact becomes_refl d.verdicts
  | forgetAll => exact becomes_step d.verdicts .clear

theorem Orderly.becomes_afterEvents (h : d.Orderly) (events : List Event) :
    d.verdicts.Becomes (d.afterEvents events).verdicts := by
  unfold afterEvents
  induction events generalizing d with
  | nil => exact becomes_refl d.verdicts
  | cons e rest ih => exact (h.becomes_undergo e).trans (ih (h.undergo e))

/-- **Whatever happens to a desk, its memory is one after some steps.** -/
theorem becomes_afterEvents (schema : Schema) (cache : CacheSettings) (events : List Event) :
    (Verdicts.new cache).Becomes ((Desk.new schema cache).afterEvents events).verdicts :=
  (orderly_new schema cache).becomes_afterEvents events

/-- The desk has the memory that it was made with. -/
theorem settings_afterEvents (schema : Schema) (cache : CacheSettings) (events : List Event) :
    ((Desk.new schema cache).afterEvents events).verdicts.settings = cache := by
  obtain ⟨steps, hsteps⟩ := becomes_afterEvents schema cache events
  rw [hsteps]
  exact Verdicts.settings_after (.new cache) steps

/-- **The memory of a desk stays within its bounds.** -/
theorem slim_afterEvents (schema : Schema) (cache : CacheSettings) (events : List Event) :
    ((Desk.new schema cache).afterEvents events).verdicts.Slim := by
  obtain ⟨steps, hsteps⟩ := becomes_afterEvents schema cache events
  rw [hsteps]
  exact (Verdicts.slim_new cache).after steps

end Desk

end Newswire
