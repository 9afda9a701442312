import Newswire.Proofs.Desk.Memory

/-!
# Vocabularies that change

The vocabularies say what the names of fields mean, and they are changed past the desk, between its
requests.  Every decision reads the vocabularies of the moment, but no verdict is forgotten when they
change.

* `Desk.Event` : a request, a change of a vocabulary, or the order to forget all verdicts.
* `Desk.Unaffected` : nothing that is remembered depends on a field that gets another meaning.
* `Desk.UpToDate` : a run in which no change of a vocabulary affected a verdict, as far as one is
  remembered.
* `Desk.answer_afterEvents` : **after such a run a question is answered as if everything was
  evaluated anew**, and so is a question that takes no remembered verdict after any run.
* `Desk.stale_after_putVocabulary` : after another run a remembered verdict is taken that evaluation
  does not find any more.
-/

namespace Newswire

open Rulebook

namespace Rulebook

variable {b : Rulebook} {id : String} {r : Rule}

/-- A rule is evaluated alike as long as the fields of the conditions that it demands mean the
same. -/
theorem WellFormed.holds_schema_eq (hb : b.WellFormed) (hr : b.rules.get? id = some r)
    {s s' : Schema} (hlayout : s'.layout = s.layout)
    (hsame : ∀ c, b.Demands r c → s'.resolve c.field = s.resolve c.field) (item : Json) :
    b.holds s' item (some r) = b.holds s item (some r) := by
  have hholds : ∀ c, b.Demands r c → c.holds s' item = c.holds s item := by
    intro c hc
    unfold Condition.holds
    rw [hsame c hc, hlayout]
  have hselects : b.Selects (fun c => c.holds s' item = true) r ↔
      b.Selects (fun c => c.holds s item = true) r :=
    ⟨fun h => h.imp fun c hc hs => (hholds c hc).symm.trans hs,
      fun h => h.imp fun c hc hs => (hholds c hc).trans hs⟩
  obtain ⟨v, hv, hv'⟩ :=
    (hb.decides_holds hr s item).agree ((hb.decides_holds hr s' item).congr hselects)
  exact hv'.trans hv.symm

end Rulebook

namespace Desk

/-! ### Events -/

/-- What happens to a desk. -/
inductive Event where
  /-- The desk is asked to do something. -/
  | request (q : Request)
  /-- A vocabulary is added, or put in place of the one with its identifier. -/
  | putVocabulary (v : Vocabulary)
  /-- A vocabulary is taken away. -/
  | removeVocabulary (id : String)
  /-- All verdicts are forgotten. -/
  | forgetAll

/-- The desk with other vocabularies. -/
def withSchema (d : Desk) (s : Schema) : Desk := { d with schema := s }

/-- The desk after an event. -/
def undergo (d : Desk) : Event → Desk
  | .request q => (d.perform q).2
  | .putVocabulary v => d.withSchema (d.schema.put v)
  | .removeVocabulary id => d.withSchema (d.schema.remove id)
  | .forgetAll => d.forgetAll

/-- The desk after a run of events. -/
def afterEvents (d : Desk) (events : List Event) : Desk := events.foldl undergo d

/-- A question among the events is about some of the items. -/
def Event.About (items : Set Json) : Event → Prop
  | .request (.ask q) => q.About items
  | .request (.change _) | .request (.changeBook _) | .putVocabulary _ | .removeVocabulary _
  | .forgetAll => True

/-- Nothing that is remembered depends on a field that means something else in the schema. -/
def Unaffected (d : Desk) (s : Schema) : Prop :=
  ∀ key verdict, (key, verdict) ∈ d.verdicts.entries → ∀ r, d.book.rules.get? key.rule = some r →
    ∀ c, d.book.Demands r c → s.resolve c.field = d.schema.resolve c.field

/-- The event leaves what is remembered true: a change of a vocabulary does not affect it, a rule
that is asked about is known, and the rulebook is not changed past the desk. -/
def Harmless (d : Desk) : Event → Prop
  | .request (.change _) | .forgetAll => True
  | .request (.changeBook _) => False
  | .request (.ask q) => d.Knows q
  | .putVocabulary v => d.Unaffected (d.schema.put v)
  | .removeVocabulary id => d.Unaffected (d.schema.remove id)

/-- What is remembered after the run is up to date: every event was harmless since the run began or
since all verdicts were forgotten. -/
inductive UpToDate (d : Desk) : List Event → Prop
  /-- Nothing has happened yet. -/
  | nil : UpToDate d []
  /-- Everything has been forgotten. -/
  | forgetAll (events : List Event) : UpToDate d (events ++ [.forgetAll])
  /-- Something harmless has happened. -/
  | step {events : List Event} {e : Event} :
      UpToDate d events → (d.afterEvents events).Harmless e → UpToDate d (events ++ [e])

variable {d : Desk} {items : Set Json}

theorem afterEvents_concat (d : Desk) (events : List Event) (e : Event) :
    d.afterEvents (events ++ [e]) = (d.afterEvents events).undergo e := by
  simp [afterEvents]

theorem unaffected_of_saved {s : Schema} (h : (d.book.conditions.entries.all fun e =>
    s.resolve e.2.field == d.schema.resolve e.2.field) = true) : d.Unaffected s := by
  intro _ _ _ r _ c hc
  obtain ⟨id, hid⟩ := hc.exists_saved
  exact eq_of_beq (List.all_eq_true.1 h (id, c) (Table.mem_entries_iff.2 hid))

/-! ### Runs -/

theorem Orderly.undergo (h : d.Orderly) (e : Event) : (d.undergo e).Orderly := by
  cases e with
  | request q => exact h.perform q
  | putVocabulary | removeVocabulary | forgetAll =>
    exact ⟨h.1, h.2.of_rules rfl fun _ _ hk => hk⟩

theorem orderly_afterEvents (h : d.Orderly) (events : List Event) :
    (d.afterEvents events).Orderly := by
  unfold afterEvents
  induction events generalizing d with
  | nil => exact h
  | cons e rest ih => exact ih (h.undergo e)

theorem Reliable.withSchema (h : d.Reliable items) {s : Schema} (hlayout : s.layout = d.schema.layout)
    (hs : d.Unaffected s) : (d.withSchema s).Reliable items where
  sound := h.sound
  truthful := by
    intro key verdict hmem
    obtain ⟨r, hr, hrevision, hholds⟩ := h.truthful key verdict hmem
    refine ⟨r, hr, hrevision, fun item hitem hid => ?_⟩
    refine Eq.trans ?_ (hholds item hitem hid)
    exact h.sound.toWellFormed.holds_schema_eq hr hlayout (hs key verdict hmem r hr) item

theorem Reliable.undergo (h : d.Reliable items) (hitems : Identified items) {e : Event}
    (habout : e.About items) (he : d.Harmless e) : (d.undergo e).Reliable items := by
  cases e with
  | request q =>
    cases q with
    | change c => exact h.perform hitems (q := .change c) trivial
    | changeBook c => exact he.elim
    | ask q => exact (h.ask hitems habout he).2
  | putVocabulary v => exact h.withSchema rfl he
  | removeVocabulary id => exact h.withSchema rfl he
  | forgetAll => exact ⟨h.sound, truthful_new _ items d.verdicts.settings⟩

theorem reliable_afterEvents {schema : Schema} {cache : CacheSettings} (hitems : Identified items)
    {events : List Event} (hevents : ∀ e ∈ events, e.About items)
    (h : (Desk.new schema cache).UpToDate events) :
    ((Desk.new schema cache).afterEvents events).Reliable items := by
  induction h with
  | nil => exact reliable_new schema cache items
  | forgetAll events =>
    rw [afterEvents_concat]
    have horderly := orderly_afterEvents (orderly_new schema cache) events
    exact ⟨horderly.1, truthful_new _ items {}⟩
  | @step events e _ he ih =>
    rw [afterEvents_concat]
    have hbefore := ih fun e he => hevents e (List.mem_append_left _ he)
    exact hbefore.undergo hitems (hevents e (List.mem_append_right _ List.mem_cons_self)) he

/-! ### Answers -/

/-- The question takes no verdict from the memory of the desk. -/
def Question.Memoryless : Question → Prop
  | .selects _ _ memory | .savedSelects _ _ memory => memory = false
  | .filterItems .. => True
  | .receives .. | .applies .. => False

theorem fst_run_selects (d : Desk) (r : Rule) (item : Json) (v : Verdicts) :
    ((d.selects (some r) item false).run v).1 = d.book.holds d.schema item (some r) := by
  have hjudge : ((d.judge r item).run v).1 = d.book.holds d.schema item (some r) := by
    rw [run_judge]
    cases d.book.holds d.schema item (some r) <;> rfl
  rw [run_selects]
  cases verdictKey? v.settings r item <;> exact hjudge

theorem fst_run_told {α : Type} {j : Judging α} {v : Verdicts} {x : Except RuleError α}
    (h : (j.run v).1 = x) (f : α → Answer) : ((do return f (← j)).run v).1 = f <$> x := by
  subst h
  rw [run_bind]
  generalize j.run v = y
  obtain ⟨_ | a, w⟩ := y <;> rfl

theorem answer_of_memoryless (hb : d.book.WellFormed) (hitems : Identified items) {q : Question}
    (habout : q.About items) (hq : q.Memoryless) : (d.perform (.ask q)).1 = d.anew q := by
  cases q with
  | selects r item memory =>
    obtain rfl : memory = false := hq
    cases r with
    | none => rfl
    | some r => exact fst_run_told (fst_run_selects d r item d.verdicts) Answer.verdict
  | savedSelects id item memory =>
    obtain rfl : memory = false := hq
    have hsaved : ((d.savedSelects id item false).run d.verdicts).1 = d.savedHolds id item := by
      unfold savedSelects savedHolds
      rw [run_bind, run_liftM]
      cases d.book.rule id with
      | error e => rfl
      | ok r => exact fst_run_selects d r item d.verdicts
    exact fst_run_told hsaved Answer.verdict
  | filterItems id xs =>
    rw [anew, ← map_bind, ← filterItems_eq hb hitems habout]
    have hfound : ((liftM (d.filterItems id xs) : Judging (List Json)).run d.verdicts).1 =
        d.filterItems id xs := rfl
    exact fst_run_told hfound Answer.items
  | receives | applies => exact hq.elim

/-- **Every question is answered as if everything was evaluated anew with the vocabularies of the
moment**, if no change of a vocabulary affected a verdict that is remembered, or if the question
takes none. -/
theorem answer_afterEvents (hitems : Identified items) (schema : Schema) (cache : CacheSettings)
    {events : List Event} (hevents : ∀ e ∈ events, e.About items) {q : Question}
    (habout : q.About items)
    (hq : ((Desk.new schema cache).UpToDate events ∧
      ((Desk.new schema cache).afterEvents events).Knows q) ∨ q.Memoryless) :
    (((Desk.new schema cache).afterEvents events).perform (.ask q)).1 =
      ((Desk.new schema cache).afterEvents events).anew q := by
  rcases hq with ⟨hdate, hknown⟩ | hq
  · exact ((reliable_afterEvents hitems hevents hdate).ask hitems habout hknown).1
  · have horderly := orderly_afterEvents (orderly_new schema cache) events
    exact answer_of_memoryless horderly.1.toWellFormed hitems habout hq

theorem identified_singleton (item : Json) : Identified {item} := by
  intro x hx y hy _ _ _
  exact (Set.mem_singleton_iff.1 hx).trans (Set.mem_singleton_iff.1 hy).symm

/-- An item with a tag of a vocabulary. -/
def taggedItem : Json :=
  .obj [("_id", .str "1"), ("subject", .arr [.obj [("qcode", .str "weather"),
    ("scheme", .str "topics")]])]

/-- A condition on the codes of the vocabulary is saved. -/
def savedCondition : Event :=
  .request (.change (.saveCondition (.ofParts "weather" "topics" .eq "weather")))

/-- A rule with the condition is saved. -/
def savedRule : Event :=
  .request (.change (.saveRule default (.new default "wire" "wire" [⟨.ofList ["weather"], ∅⟩])))

/-- A verdict on the item is remembered, and then the name of the field gets its meaning. -/
def renamedRun : List Event :=
  [savedCondition, savedRule, .request (.ask (.savedSelects "wire" taggedItem true)),
    .putVocabulary (.controlled "topics" [])]

/-- All verdicts are forgotten after that, a verdict is remembered again, and another vocabulary is
taken away. -/
def refreshedRun : List Event :=
  renamedRun ++ [.forgetAll] ++ [.request (.ask (.savedSelects "wire" taggedItem true))] ++
    [.removeVocabulary "places"]

theorem answer_afterEvents_refreshedRun : Identified {taggedItem} ∧
    (∀ e ∈ refreshedRun, e.About {taggedItem}) ∧
    (Desk.new (.ofLayout {}) {}).UpToDate refreshedRun ∧
    (((Desk.new (.ofLayout {}) {}).afterEvents refreshedRun).perform
        (.ask (.savedSelects "wire" taggedItem true))).1 =
      ((Desk.new (.ofLayout {}) {}).afterEvents refreshedRun).anew
        (.savedSelects "wire" taggedItem true) := by
  have hitems := identified_singleton taggedItem
  have hevents : ∀ e ∈ refreshedRun, e.About {taggedItem} := by
    simp [refreshedRun, renamedRun, savedCondition, savedRule, Event.About, Question.About]
  have hdate : (Desk.new (.ofLayout {}) {}).UpToDate refreshedRun := by
    refine .step (.step (.forgetAll renamedRun) trivial) (unaffected_of_saved ?_)
    decide +kernel
  exact ⟨hitems, hevents, hdate, answer_afterEvents hitems (.ofLayout {}) {} hevents
    (Set.mem_singleton taggedItem) (Or.inl ⟨hdate, trivial⟩)⟩

/-! ### Verdicts that are remembered -/

section Again

variable {v w : Verdicts} {r : Rule} {item : Json} {key : VerdictKey} {verdict : Bool} {id : String}

theorem remembered_judge (henabled : v.settings.enabled = true) (hmax : v.settings.maxEntries ≠ 0)
    (hkey : verdictKey? v.settings r item = some key)
    (h : (d.judge r item).run v = (.ok verdict, w)) :
    w.settings = v.settings ∧ w.peek key = some verdict := by
  rw [run_judge, hkey] at h
  cases hholds : d.book.holds d.schema item (some r) with
  | error e =>
    rw [hholds] at h
    cases h
  | ok found =>
    rw [hholds] at h
    obtain ⟨hfound, rfl⟩ := Prod.mk.inj h
    obtain rfl := Except.ok.inj hfound
    exact ⟨Verdicts.settings_put v key found v.generation, Verdicts.peek_put henabled hmax⟩

/-- The outcome of a decision is remembered: it was so before, or it has just been found. -/
theorem remembered_selects (henabled : v.settings.enabled = true)
    (hmax : v.settings.maxEntries ≠ 0) (hkey : verdictKey? v.settings r item = some key)
    (h : (d.selects (some r) item true).run v = (.ok verdict, w)) :
    w.settings = v.settings ∧ w.peek key = some verdict := by
  rw [run_selects, hkey] at h
  dsimp only at h
  cases hpeek : v.peek key with
  | some found =>
    rw [Verdicts.get_of_some henabled hpeek] at h
    obtain ⟨hfound, rfl⟩ := Prod.mk.inj h
    obtain rfl := Except.ok.inj hfound
    exact ⟨rfl, hpeek⟩
  | none =>
    rw [Verdicts.get_of_none henabled hpeek] at h
    exact remembered_judge (v := { v with misses := v.misses + 1 }) henabled hmax hkey h

theorem savedSelects_of_remembered (henabled : v.settings.enabled = true)
    (hr : d.book.rules.get? id = some r) (hkey : verdictKey? v.settings r item = some key)
    (hpeek : v.peek key = some verdict) :
    (d.savedSelects id item true).run v = (.ok verdict, { v with hits := v.hits + 1 }) := by
  unfold savedSelects
  rw [rule_eq_ok_iff.2 hr]
  show (d.selects (some r) item true).run v = _
  rw [run_selects, hkey]
  dsimp only
  rw [Verdicts.get_of_some henabled hpeek]

theorem perform_savedSelects (h : (d.savedSelects id item true).run d.verdicts = (.ok verdict, w)) :
    d.perform (.ask (.savedSelects id item true)) =
      (.ok (.verdict verdict), { d with verdicts := w }) := by
  have hanswer : (d.answer (.savedSelects id item true)).run d.verdicts =
      (.ok (.verdict verdict), w) := by
    unfold answer
    rw [run_bind, h]
    rfl
  show (((d.answer (.savedSelects id item true)).run d.verdicts).1,
    { d with verdicts := ((d.answer (.savedSelects id item true)).run d.verdicts).2 }) = _
  rw [hanswer]

/-- **A desk that remembers verdicts goes on to answer as before**, whatever the fields mean now. -/
theorem perform_again (hd : d.Reliable items) (hitems : Identified items) (hitem : item ∈ items)
    (henabled : d.verdicts.settings.enabled = true) (hmax : d.verdicts.settings.maxEntries ≠ 0)
    (hr : d.book.rules.get? id = some r) (hkey : verdictKey? d.verdicts.settings r item = some key)
    (hholds : d.savedHolds id item = .ok verdict) (s : Schema) :
    (((d.perform (.ask (.savedSelects id item true))).2.withSchema s).perform
      (.ask (.savedSelects id item true))).1 = .ok (.verdict verdict) := by
  have hfirst : ((d.savedSelects id item true).run d.verdicts).1 = .ok verdict :=
    (yields_savedSelects hd.sound.toWellFormed hitems hitem true d.verdicts hd.truthful).1.trans
      hholds
  generalize hrun : (d.savedSelects id item true).run d.verdicts = out at hfirst
  obtain ⟨_, w⟩ := out
  obtain rfl := hfirst
  rw [perform_savedSelects hrun]
  -- the first decision has left its outcome in the memory
  have hselects : (d.selects (some r) item true).run d.verdicts = (.ok verdict, w) := by
    unfold savedSelects at hrun
    rw [rule_eq_ok_iff.2 hr] at hrun
    exact hrun
  obtain ⟨hsettings, hpeek⟩ := remembered_selects henabled hmax hkey hselects
  have hsecond : ((({ d with verdicts := w } : Desk).withSchema s).savedSelects id item true).run w =
      (.ok verdict, { w with hits := w.hits + 1 }) :=
    savedSelects_of_remembered (by rw [hsettings, henabled]) hr (by rw [hsettings, hkey]) hpeek
  exact congrArg Prod.fst (perform_savedSelects hsecond)

theorem settings_change (hb : d.book.Sound) (c : Change) :
    (d.perform (.change c)).2.verdicts.settings = d.verdicts.settings := by
  refine settle_induction (P := fun d' => d'.verdicts.settings = d.verdicts.settings)
    (fun a d' hc => ?_) rfl
  obtain ⟨concerned, heffect⟩ := change_effect hb hc
  rw [heffect.verdicts, Verdicts.settings_forget]

end Again

/-- The desk before the question of the run. -/
def askedDesk : Desk := ((Desk.new (.ofLayout {}) {}).undergo savedCondition).undergo savedRule

theorem reliable_askedDesk : askedDesk.Reliable {taggedItem} := by
  have hitems := identified_singleton taggedItem
  have hnew := reliable_new (.ofLayout {}) {} {taggedItem}
  have hcondition := hnew.undergo hitems (e := savedCondition) trivial trivial
  exact hcondition.undergo hitems (e := savedRule) trivial trivial

theorem settings_askedDesk : askedDesk.verdicts.settings = {} := by
  have horderly := orderly_new (.ofLayout {}) {}
  exact (settings_change (horderly.undergo savedCondition).1 _).trans (settings_change horderly.1 _)

/-- **A verdict that was found with an earlier vocabulary is taken**, although evaluation finds
another one. -/
theorem stale_after_putVocabulary : Identified {taggedItem} ∧
    (∀ e ∈ renamedRun, e.About {taggedItem}) ∧
    (((Desk.new (.ofLayout {}) {}).afterEvents renamedRun).perform
        (.ask (.savedSelects "wire" taggedItem true))).1 = .ok (.verdict false) ∧
    ((Desk.new (.ofLayout {}) {}).afterEvents renamedRun).savedHolds "wire" taggedItem =
      .ok true := by
  have hitems := identified_singleton taggedItem
  have hevents : ∀ e ∈ renamedRun, e.About {taggedItem} := by
    simp [renamedRun, savedCondition, savedRule, Event.About, Question.About]
  refine ⟨hitems, hevents, ?_, eq_ok_of_toOption (by decide +kernel)⟩
  -- the rule and the verdict before the vocabulary is put in
  obtain ⟨r, hr, hkey⟩ := Option.bind_eq_some_iff.1
    (show ((askedDesk.book.rules.get? "wire").bind fun r => verdictKey? {} r taggedItem) =
      some ⟨"wire", 1, "1"⟩ by decide +kernel)
  rw [← settings_askedDesk] at hkey
  have henabled : askedDesk.verdicts.settings.enabled = true := by rw [settings_askedDesk]
  have hmax : askedDesk.verdicts.settings.maxEntries ≠ 0 := by
    rw [settings_askedDesk]
    decide
  have hholds : askedDesk.savedHolds "wire" taggedItem = .ok false :=
    eq_ok_of_toOption (by decide +kernel)
  exact perform_again reliable_askedDesk hitems (Set.mem_singleton taggedItem) henabled hmax hr
    hkey hholds _

end Desk

end Newswire
