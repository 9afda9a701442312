import Mathlib.Algebra.Group.Nat.Defs
import Newswire.Proofs.Desk.Vocabulary

/-!
# Rules that are held on to

Whoever got a rule from the desk may ask about it later, when the desk has another version of the
rule or none.  The verdict on it is remembered under its identifier and its version.

* `Desk.Current` : a verdict is what evaluation finds now, if it is about the saved version of a
  rule.
* `Desk.Discerns` : the desk tells a rule from the saved one by their versions, or both demand the
  same.  A rule that was got from the desk is told apart as long as it is not deleted
  (`Desk.discerns_of_kept`, `Desk.discerns_of_returned`).
* `Desk.PermitsAll` : a run in which the desk could tell every rule apart that it was asked about.
  After it all remembered verdicts are current (`Desk.trusty_after`), so that the desk answers as if
  everything was evaluated anew (`Desk.Trusty.answer_eq`).
* `Desk.answer_after_held` : **no later answer shows that the desk was asked about a rule that it
  could tell apart.**
* `Desk.savedSelects_after_confused` : otherwise the verdict on the rule is taken for that on the saved
  one.  A rule that is deleted and saved anew counts its versions from the beginning, and then a rule
  from before is not told apart (`Desk.poisoned_after_recreation`).
-/

namespace Newswire

open Rulebook

namespace Rulebook

/-- Rules that demand the same under one identifier are evaluated alike. -/
theorem holds_congr {r s : Rule} (hid : s.id = r.id) (hclauses : s.clauses = r.clauses)
    (b : Rulebook) (schema : Schema) (item : Json) :
    b.holds schema item (some s) = b.holds schema item (some r) := by
  show b.holdsFrom schema item .empty s = b.holdsFrom schema item .empty r
  rw [holdsFrom_eq, holdsFrom_eq, hid, hclauses]

end Rulebook

namespace Desk

variable {d d' e : Desk} {items : Set Json} {item : Json} {r s : Rule}

/-! ### Current verdicts -/

/-- The verdict is what evaluation finds on the items, if it is about the saved version of a rule. -/
def Current (d : Desk) (items : Set Json) (key : VerdictKey) (verdict : Bool) : Prop :=
  ∀ r, d.book.rules.get? key.rule = some r → r.revision = key.revision →
    ∀ item ∈ items, Item.id? item = some key.item → d.book.holds d.schema item (some r) = .ok verdict

theorem tells_current (hitems : Identified items) (hitem : item ∈ items) :
    d.Tells (d.Current items) item := by
  refine ⟨fun {r _ key verdict} hr hkey => ?_⟩
  obtain ⟨-, hrule, hrevision, hid⟩ := verdictKey?_eq_some hkey
  constructor
  · intro hcurrent
    exact hcurrent r (hrule ▸ hr) hrevision.symm item hitem hid
  · intro hholds s hs _ x hx hxid
    rw [hrule, hr] at hs
    obtain rfl := Option.some.inj hs
    rw [hitems x hx item hitem _ hxid hid]
    exact hholds

/-- The desk tells the rule from the saved one with its identifier by their versions, or both demand
the same. -/
def Discerns (d : Desk) (r : Rule) : Prop :=
  ∀ s, d.book.rules.get? r.id = some s → s.revision = r.revision → s.clauses = r.clauses

/-- **The verdict on a rule that is told apart is current**: under its key there is no saved rule
that demands something else. -/
theorem Discerns.meets_selects (hr : d.Discerns r) (hb : d.book.WellFormed)
    (hitems : Identified items) (hitem : item ∈ items) (memory : Bool) :
    Meets (d.Current items) (d.selects (some r) item memory) fun _ => True := by
  refine Desk.meets_selects trivial (fun {_ key verdict} hkey hholds => ?_)
    (fun _ _ => trivial) memory
  obtain ⟨-, hrule, hrevision, hid⟩ := verdictKey?_eq_some hkey
  intro s hs hversion x hx hxid
  rw [hrule] at hs
  rw [hitems x hx item hitem _ hxid hid,
    holds_congr (hb.id_eq hs) (hr s hs (hversion.trans hrevision))]
  exact hholds

/-- A change forgets every verdict that it may have made out of date. -/
theorem Effect.current {concerned : IdSet} (h : Effect d d' concerned) (hb : d.book.WellFormed)
    (hv : d.verdicts.All (d.Current items)) : d'.verdicts.All (d'.Current items) := by
  rw [h.verdicts]
  refine hv.forget fun hspared hcurrent => ?_
  intro r hr hrevision item hitem hid
  -- the verdict was kept, so the change spares its rule
  have hsaved := (h.spares.rules hspared).symm.trans hr
  exact (h.holds_eq hb hspared hsaved item).trans (hcurrent r hsaved hrevision item hitem hid)

/-! ### Runs with rules that are told apart -/

/-- The desk tells the rule of the question apart. -/
def Handles (d : Desk) : Question → Prop
  | .selects r _ _ => ∀ rule ∈ r, d.Discerns rule
  | .savedSelects .. | .filterItems .. | .receives .. | .applies .. => True

/-- The request is made at the desk, and a question is about some of the items and about a rule that
the desk tells apart. -/
def Permits (d : Desk) (items : Set Json) : Request → Prop
  | .change _ => True
  | .changeBook _ => False
  | .ask q => q.About items ∧ d.Handles q

/-- Every request of the run is permitted at its time. -/
def PermitsAll (d : Desk) (items : Set Json) : List Request → Prop
  | [] => True
  | q :: rest => d.Permits items q ∧ (d.perform q).2.PermitsAll items rest

theorem permitsAll_append {xs ys : List Request} :
    d.PermitsAll items (xs ++ ys) ↔ d.PermitsAll items xs ∧ (d.after xs).PermitsAll items ys := by
  induction xs generalizing d with
  | nil => exact iff_and_self.2 fun _ => trivial
  | cons q rest ih =>
    show _ ∧ PermitsAll _ _ (rest ++ ys) ↔ _
    rw [ih, ← and_assoc]
    rfl

theorem after_append (d : Desk) (xs ys : List Request) :
    d.after (xs ++ ys) = (d.after xs).after ys :=
  List.foldl_append

/-- A desk on a sound rulebook whose remembered verdicts are current. -/
structure Trusty (d : Desk) (items : Set Json) : Prop where
  /-- The conditions and rules are in order. -/
  sound : d.book.Sound
  /-- What is remembered is current. -/
  current : d.verdicts.All (d.Current items)

/-- A trusty desk answers as if everything was evaluated anew, and stays trusty. -/
theorem Trusty.ask (h : d.Trusty items) (hitems : Identified items) {q : Question}
    (habout : q.About items) (hknown : d.Knows q) :
    (d.perform (.ask q)).1 = d.anew q ∧ (d.perform (.ask q)).2.Trusty items := by
  have htells : ∀ item ∈ items, d.Tells (d.Current items) item :=
    fun item hitem => tells_current hitems hitem
  obtain ⟨hanswer, hcurrent⟩ :=
    perform_ask_of_tells h.sound.toWellFormed hitems htells h.current habout hknown
  exact ⟨hanswer, h.sound, hcurrent⟩

theorem Trusty.answer_eq (h : d.Trusty items) (hitems : Identified items) {q : Question}
    (hq : q.Within items) : (d.perform (.ask q)).1 = d.anew q :=
  (h.ask hitems hq.about (hq.knows d)).1

theorem Trusty.perform (h : d.Trusty items) (hitems : Identified items) {q : Request}
    (hq : d.Permits items q) : (d.perform q).2.Trusty items := by
  cases q with
  | change c =>
    refine @settle_induction (fun d => d.Trusty items) _ _ (fun a d' hc => ?_) h
    obtain ⟨concerned, heffect⟩ := change_effect h.sound hc
    exact ⟨heffect.sound, heffect.current h.sound.toWellFormed h.current⟩
  | changeBook c => exact hq.elim
  | ask question =>
    cases question with
    | selects rule item memory =>
      obtain ⟨hitem, hrule⟩ := hq
      cases rule with
      | none => exact h
      | some r =>
        have hselects := (hrule r rfl).meets_selects h.sound.toWellFormed hitems hitem memory
        have hanswer : Meets (d.Current items) (d.answer (.selects (some r) item memory))
            fun _ => True :=
          hselects.bind (fun _ _ => trivial) fun _ _ => meets_pure trivial
        exact ⟨h.sound, (hanswer d.verdicts h.current).2⟩
    | savedSelects | filterItems | receives | applies => exact (h.ask hitems hq.1 trivial).2

theorem Trusty.after (h : d.Trusty items) (hitems : Identified items) {requests : List Request}
    (hrun : d.PermitsAll items requests) : (d.after requests).Trusty items := by
  induction requests generalizing d with
  | nil => exact h
  | cons q rest ih => exact ih (h.perform hitems hrun.1) hrun.2

theorem trusty_new (schema : Schema) (cache : CacheSettings) (items : Set Json) :
    (Desk.new schema cache).Trusty items :=
  ⟨.empty, Verdicts.all_new cache⟩

/-- **After a run in which the desk could tell all rules apart, what it remembers is current.** -/
theorem trusty_after (hitems : Identified items) (schema : Schema) (cache : CacheSettings)
    {requests : List Request} (hrun : (Desk.new schema cache).PermitsAll items requests) :
    ((Desk.new schema cache).after requests).Trusty items :=
  (trusty_new schema cache items).after hitems hrun

/-! ### Desks that differ in what they remember -/

variable {q : Request}

theorem Permits.of_bare_eq (hq : d.Permits items q) (hbare : e.bare = d.bare) :
    e.Permits items q := by
  have hsame := eq_of_bare_eq hbare
  rw [hsame]
  cases q with
  | change c => trivial
  | changeBook c => exact hq
  | ask question => cases question <;> exact hq

/-- What a request changes does not depend on what is remembered. -/
theorem Permits.bare_perform_eq (hq : d.Permits items q) (hbare : e.bare = d.bare) :
    (e.perform q).2.bare = (d.perform q).2.bare := by
  cases q with
  | change c => exact (perform_change_eq hbare c).2
  | changeBook c => exact hq.elim
  | ask question => exact hbare

theorem bare_after_eq {requests : List Request} (hbare : e.bare = d.bare)
    (hrun : d.PermitsAll items requests) :
    e.PermitsAll items requests ∧ (e.after requests).bare = (d.after requests).bare := by
  induction requests generalizing d e with
  | nil => exact ⟨trivial, hbare⟩
  | cons q rest ih =>
    obtain ⟨hpermits, hafter⟩ := ih (hrun.1.bare_perform_eq hbare) hrun.2
    exact ⟨⟨hrun.1.of_bare_eq hbare, hpermits⟩, hafter⟩

/-- **A question about a rule that the desk tells apart shows in no later answer.** -/
theorem answer_after_held (hitems : Identified items) (schema : Schema) (cache : CacheSettings)
    {before rest : List Request} (hrun : (Desk.new schema cache).PermitsAll items (before ++ rest))
    (hr : ((Desk.new schema cache).after before).Discerns r) (hitem : item ∈ items) (memory : Bool)
    {q : Question} (hq : q.Within items) :
    (((Desk.new schema cache).after
        (before ++ .ask (.selects (some r) item memory) :: rest)).perform (.ask q)).1 =
      (((Desk.new schema cache).after (before ++ rest)).perform (.ask q)).1 := by
  obtain ⟨hbefore, hrest⟩ := permitsAll_append.1 hrun
  have hd := trusty_after hitems schema cache hbefore
  rw [after_append, after_append]
  generalize (Desk.new schema cache).after before = d at hr hrest hd
  -- the question leaves everything as it is apart from what is remembered
  have hasked : d.Permits items (.ask (.selects (some r) item memory)) := by
    refine ⟨hitem, fun rule hrule => ?_⟩
    obtain rfl := Option.some.inj hrule
    exact hr
  have he := hd.perform hitems hasked
  have hbare : (d.perform (.ask (.selects (some r) item memory))).2.bare = d.bare := rfl
  show (((d.perform (.ask (.selects (some r) item memory))).2.after rest).perform (.ask q)).1 = _
  generalize (d.perform (.ask (.selects (some r) item memory))).2 = e at he hbare
  obtain ⟨hrest', hafter⟩ := bare_after_eq hbare hrest
  calc ((e.after rest).perform (.ask q)).1
      = (e.after rest).anew q := (he.after hitems hrest').answer_eq hitems hq
    _ = (d.after rest).anew q := anew_eq hafter q
    _ = ((d.after rest).perform (.ask q)).1 := ((hd.after hitems hrest).answer_eq hitems hq).symm

/-! ### Rules that were got from the desk -/

theorem saved_of_perform {now : Timestamp}
    (h : (d.perform (.change (.saveRule now s))).1 = .ok (.rule r)) :
    (d.perform (.change (.saveRule now s))).2.book.rules.get? r.id = some r := by
  have hsave : d.change (.saveRule now s) = d.saveRule now s >>= fun x => .ok (.rule x.1, x.2) := rfl
  simp only [perform, hsave] at h ⊢
  cases hsaved : d.saveRule now s with
  | error e =>
    rw [hsaved] at h
    cases h
  | ok x =>
    obtain ⟨saved, d'⟩ := x
    rw [hsaved] at h
    obtain rfl := Answer.rule.inj (Except.ok.inj h)
    obtain ⟨book, hbook, rfl⟩ := saveRule_eq_ok_iff.1 hsaved
    obtain ⟨-, -, -, rfl⟩ := saveRuleChecked_eq_ok_iff.1 hbook
    exact Table.get?_insert_self ..

/-- The request does not delete the rule. -/
def Request.Keeps (id : String) : Request → Prop
  | .change (.deleteRule k) => k ≠ id
  | .change _ | .changeBook _ | .ask _ => True

/-- The rule is saved, or a version that came as the `n`-th after it. -/
def Follows (b : Rulebook) (r : Rule) (n : Nat) : Prop :=
  ∃ s, b.rules.get? r.id = some s ∧ s.revision = r.revision + .ofNat n ∧ (n = 0 → s = r)

theorem Follows.saveRuleChecked {b b' : Rulebook} {extra : Rule → Except RuleError Unit}
    {now : Timestamp} {n : Nat} {saved : Rule} (h : Follows b r n)
    (hsave : b.saveRuleChecked now extra s = .ok (saved, b')) :
    Follows b' r n ∨ Follows b' r (n + 1) := by
  obtain ⟨old, hold, hrevision, hfirst⟩ := h
  obtain ⟨-, -, rfl, rfl⟩ := saveRuleChecked_eq_ok_iff.1 hsave
  have hget : (b.putRule (b.rules.get? s.id) (nextVersion now (b.rules.get? s.id) s)).rules.get? r.id =
      if r.id = s.id then some (nextVersion now (b.rules.get? s.id) s) else b.rules.get? r.id := by
    show (b.rules.insert _ _).get? r.id = _
    rw [Table.get?_insert, id_nextVersion]
  by_cases hid : r.id = s.id
  · refine Or.inr ⟨_, hget.trans (if_pos hid), ?_, fun hn => absurd hn n.succ_ne_zero⟩
    rw [← hid, hold]
    show old.revision + 1 = _
    rw [hrevision, UInt64.ofNat_add, UInt64.add_assoc]
    rfl
  · exact Or.inl ⟨old, (hget.trans (if_neg hid)).trans hold, hrevision, hfirst⟩

theorem Follows.perform {n : Nat} {q : Request} (h : Follows d.book r n) (hq : q.Keeps r.id) :
    Follows (d.perform q).2.book r n ∨ Follows (d.perform q).2.book r (n + 1) := by
  have hkept : Outlasts (fun b _ => Follows b r n ∨ Follows b r (n + 1)) d q := by
    constructor
    case before => exact Or.inl h
    case saveCondition =>
      intro c book hbook
      obtain ⟨-, rfl⟩ := Rulebook.saveCondition_eq_ok_iff.1 hbook
      exact Or.inl h
    case saveRule => exact fun hbook => h.saveRuleChecked hbook
    case deleteRule =>
      intro others id removed book hid hbook
      subst hid
      obtain ⟨-, -, -, rfl⟩ := Rulebook.deleteRule_eq_ok_iff.1 hbook
      obtain ⟨s, hs, hversion⟩ := h
      exact Or.inl ⟨s, Table.get?_erase_eq_some_iff.2 ⟨Ne.symm hq, hs⟩, hversion⟩
    case deleteCondition =>
      intro id c book hbook
      obtain ⟨-, -, rfl⟩ := Rulebook.deleteCondition_eq_ok_iff.1 hbook
      exact Or.inl h
    case saveProduct | saveSubscriber | saveRoute => exact fun _ => Or.inl h
  exact hkept.perform

theorem Follows.after {n : Nat} {requests : List Request} (h : Follows d.book r n)
    (hkeeps : ∀ q ∈ requests, q.Keeps r.id) :
    ∃ m ≤ n + requests.length, Follows (d.after requests).book r m := by
  induction requests generalizing d n with
  | nil => exact ⟨n, Nat.le_refl n, h⟩
  | cons q rest ih =>
    have hrest : ∀ q ∈ rest, q.Keeps r.id := fun q hq => hkeeps q (List.mem_cons_of_mem _ hq)
    rcases h.perform (hkeeps q List.mem_cons_self) with h | h
    · obtain ⟨m, hm, hafter⟩ := ih h hrest
      exact ⟨m, by simp only [List.length_cons]; omega, hafter⟩
    · obtain ⟨m, hm, hafter⟩ := ih h hrest
      exact ⟨m, by simp only [List.length_cons]; omega, hafter⟩

/-- Fewer versions than there are numbers for them are told apart. -/
theorem Follows.discerns {n : Nat} (h : Follows d.book r n) (hn : n < 2 ^ 64) : d.Discerns r := by
  obtain ⟨old, hold, hrevision, hfirst⟩ := h
  intro s hs hsame
  rw [hold] at hs
  obtain rfl := Option.some.inj hs
  have hzero : n = 0 := by
    have hnat := congrArg UInt64.toNat (hrevision.symm.trans hsame)
    rw [UInt64.toNat_add, UInt64.toNat_ofNat'] at hnat
    have := r.revision.toNat_lt
    omega
  rw [hfirst hzero]

/-- **A rule that was got from the desk is told apart as long as it is not deleted.** -/
theorem discerns_of_kept {requests : List Request} (hgot : d.book.rules.get? r.id = some r)
    (hkeeps : ∀ q ∈ requests, q.Keeps r.id) (hlength : requests.length < 2 ^ 64) :
    (d.after requests).Discerns r := by
  have hfirst : Follows d.book r 0 := ⟨r, hgot, (UInt64.add_zero _).symm, fun _ => rfl⟩
  obtain ⟨n, hn, hfollows⟩ := hfirst.after hkeeps
  exact hfollows.discerns (by omega)

/-- So is a rule that was answered when it was saved. -/
theorem discerns_of_returned {now : Timestamp} {requests : List Request}
    (hreturned : (d.perform (.change (.saveRule now s))).1 = .ok (.rule r))
    (hkeeps : ∀ q ∈ requests, q.Keeps r.id) (hlength : requests.length < 2 ^ 64) :
    (d.after (.change (.saveRule now s) :: requests)).Discerns r :=
  discerns_of_kept (d := (d.perform (.change (.saveRule now s))).2) (saved_of_perform hreturned)
    hkeeps hlength

/-! ### Rules that are not told apart -/

theorem verdictKey?_of_id {cache : CacheSettings} {i : String} (hr : r.id ≠ "")
    (henabled : cache.enabled = true) (hitem : Item.id? item = some i) :
    verdictKey? cache r item = some ⟨r.id, r.revision, i⟩ := by
  simp [verdictKey?, hr, henabled, hitem]

/-- **The verdict on a rule is taken for the saved one that it is not told apart from**, although
evaluation of the saved rule may find another. -/
theorem savedSelects_after_confused {i : String} {verdict : Bool}
    (hsaved : d.book.rules.get? r.id = some s) (hid : s.id = r.id)
    (hrevision : s.revision = r.revision) (hr : r.id ≠ "") (hitem : Item.id? item = some i)
    (henabled : d.verdicts.settings.enabled = true) (hmax : d.verdicts.settings.maxEntries ≠ 0)
    (hholds : d.book.holds d.schema item (some r) = .ok verdict) :
    ∃ w w' : Verdicts,
      (d.perform (.ask (.selects (some r) item false))).2 = { d with verdicts := w } ∧
        (d.savedSelects r.id item true).run w = (.ok verdict, w') := by
  have hkey := verdictKey?_of_id (r := r) hr henabled hitem
  have hsavedKey := verdictKey?_of_id (r := s) (hid ▸ hr) henabled hitem
  rw [hid, hrevision] at hsavedKey
  -- the verdict is found anew and remembered
  let w := d.verdicts.put ⟨r.id, r.revision, i⟩ verdict d.verdicts.generation
  have hselects : (d.selects (some r) item false).run d.verdicts = (.ok verdict, w) := by
    rw [run_selects, hkey]
    show (d.judge r item).run d.verdicts = _
    rw [run_judge, hholds, hkey]
  have hsettings : w.settings = d.verdicts.settings := Verdicts.settings_put ..
  refine ⟨w, { w with hits := w.hits + 1 }, ?_, savedSelects_of_remembered ?_ hsaved ?_
    (Verdicts.peek_put henabled hmax)⟩
  · show { d with verdicts := ((d.answer (.selects (some r) item false)).run d.verdicts).2 } = _
    unfold answer
    rw [run_bind, hselects]
    rfl
  · rw [hsettings, henabled]
  · rw [hsettings, hsavedKey]

theorem settings_after {requests : List Request} (hd : d.Orderly)
    (hchanges : ∀ q ∈ requests, ∃ c, q = .change c) :
    (d.after requests).verdicts.settings = d.verdicts.settings := by
  refine (@after_induction (fun e => e.Orderly ∧ e.verdicts.settings = d.verdicts.settings) _
    (fun q hq e he => ?_) _ ⟨hd, rfl⟩).2
  obtain ⟨c, rfl⟩ := hchanges q hq
  exact ⟨he.1.perform _, (settings_change he.1.1 c).trans he.2⟩

/-- An item about a flood. -/
def wetItem : Json := .obj [("_id", .str "1"), ("headline", .str "A flood")]

/-- A rule for floods. -/
def floodWire : Rule := .new default "wire" "wire" [⟨.ofList ["flood"], ∅⟩]

/-- A rule for storms with the same identifier. -/
def stormWire : Rule := .new default "wire" "wire" [⟨.ofList ["storm"], ∅⟩]

/-- The conditions of both rules are saved, and then the rule for floods. -/
def floodRun : List Request :=
  [.change (.saveCondition (.ofParts "flood" "headline" .like "flood")),
    .change (.saveCondition (.ofParts "storm" "headline" .like "storm")),
    .change (.saveRule default floodWire)]

/-- The desk after this. -/
def heldDesk : Desk := (Desk.new (.ofLayout {}) {}).after floodRun

/-- A route that the rule decides about. -/
def wireRoute : Route := ⟨"desk", "desk", some "wire"⟩

/-- The rule for storms is saved in place of the one for floods, and a route names it. -/
def replacingRun : List Request :=
  [.change (.saveRule default stormWire), .change (.saveRoute wireRoute)]

/-- The rule for floods is deleted before that. -/
def recreatingRun : List Request := .change (.deleteRule "wire") :: replacingRun

/-- The desk after this. -/
def recreatedDesk : Desk := (Desk.new (.ofLayout {}) {}).after (floodRun ++ recreatingRun)

theorem settings_recreatedDesk : recreatedDesk.verdicts.settings = {} := by
  refine settings_after (orderly_new (.ofLayout {}) {}) ?_
  simp [floodRun, recreatingRun, replacingRun]

theorem trusty_recreatedDesk : recreatedDesk.Trusty {wetItem} := by
  refine trusty_after (identified_singleton wetItem) _ _ ?_
  simp [floodRun, recreatingRun, replacingRun, PermitsAll, Permits]

theorem savedHolds_recreatedDesk : recreatedDesk.savedHolds "wire" wetItem = .ok false :=
  eq_ok_of_toOption (by decide +kernel)

/-- The rule for floods is not told apart from the one for storms: the verdict on it is taken for
that on the other. -/
theorem exists_confused : ∃ r w w', heldDesk.book.rules.get? r.id = some r ∧ r.id = "wire" ∧
    (recreatedDesk.perform (.ask (.selects (some r) wetItem false))).2 =
      { recreatedDesk with verdicts := w } ∧
    (recreatedDesk.savedSelects "wire" wetItem true).run w = (.ok true, w') := by
  obtain ⟨r, hr, hfacts⟩ := Option.bind_eq_some_iff.1
    (show ((heldDesk.book.rules.get? "wire").bind fun r =>
      (recreatedDesk.book.holds recreatedDesk.schema wetItem (some r)).toOption.map fun v =>
        (v, r.id, r.revision)) = some (true, "wire", 1) by decide +kernel)
  obtain ⟨verdict, hverdict, hparts⟩ := Option.map_eq_some_iff.1 hfacts
  obtain ⟨rfl, hid, hrevision⟩ : verdict = true ∧ r.id = "wire" ∧ r.revision = 1 := by
    simpa using hparts
  obtain ⟨s, hs, hfacts⟩ := Option.map_eq_some_iff.1
    (show (recreatedDesk.book.rules.get? "wire").map (fun s => (s.id, s.revision)) =
      some ("wire", 1) by decide +kernel)
  obtain ⟨hsid, hsrevision⟩ := Prod.mk.inj hfacts
  obtain ⟨w, w', hw, hselects⟩ := savedSelects_after_confused (hid ▸ hs) (hsid.trans hid.symm)
    (hsrevision.trans hrevision.symm) (by rw [hid]; decide) (i := "1") rfl
    (by rw [settings_recreatedDesk]) (by rw [settings_recreatedDesk]; decide)
    (eq_ok_of_toOption hverdict)
  exact ⟨r, w, w', hid ▸ hr, hid, hw, hid ▸ hselects⟩

/-- The first rule is told apart from the one that is saved in its place. -/
theorem exists_replaced : ∃ r, heldDesk.book.rules.get? r.id = some r ∧
    (Desk.new (.ofLayout {}) {}).PermitsAll {wetItem} (floodRun ++ replacingRun) ∧
    ((Desk.new (.ofLayout {}) {}).after (floodRun ++ replacingRun)).Discerns r := by
  obtain ⟨r, -, -, hr, -⟩ := exists_confused
  have hkeeps : ∀ q ∈ replacingRun, q.Keeps r.id := by
    simp [replacingRun, Request.Keeps]
  refine ⟨r, hr, by simp [floodRun, replacingRun, PermitsAll, Permits], ?_⟩
  rw [after_append]
  exact discerns_of_kept hr hkeeps (by decide)

theorem answer_after_held_replacingRun : ∃ r, heldDesk.book.rules.get? r.id = some r ∧
    Identified {wetItem} ∧
    (Desk.new (.ofLayout {}) {}).PermitsAll {wetItem} ((floodRun ++ replacingRun) ++ []) ∧
    ((Desk.new (.ofLayout {}) {}).after (floodRun ++ replacingRun)).Discerns r ∧
    (((Desk.new (.ofLayout {}) {}).after ((floodRun ++ replacingRun) ++
        .ask (.selects (some r) wetItem false) :: [])).perform
          (.ask (.applies "desk" wetItem))).1 =
      (((Desk.new (.ofLayout {}) {}).after ((floodRun ++ replacingRun) ++ [])).perform
          (.ask (.applies "desk" wetItem))).1 := by
  have hitems := identified_singleton wetItem
  obtain ⟨r, hr, hpermits, hdiscerns⟩ := exists_replaced
  have hrun : (Desk.new (.ofLayout {}) {}).PermitsAll {wetItem}
      ((floodRun ++ replacingRun) ++ []) := permitsAll_append.2 ⟨hpermits, trivial⟩
  exact ⟨r, hr, hitems, hrun, hdiscerns, answer_after_held hitems (.ofLayout {}) {} hrun hdiscerns
    rfl false rfl⟩

/-- **When a rule is deleted and another saved under its identifier, the old one is not told apart
from it**: asked about the old rule, the desk goes on to take the verdict for that on the new one. -/
theorem poisoned_after_recreation : Identified {wetItem} ∧
    ∃ r, ((Desk.new (.ofLayout {}) {}).after floodRun).book.rules.get? "wire" = some r ∧
      (((Desk.new (.ofLayout {}) {}).after (floodRun ++ recreatingRun)).perform
        (.ask (.savedSelects "wire" wetItem true))).1 = .ok (.verdict false) ∧
      (((Desk.new (.ofLayout {}) {}).after ((floodRun ++ recreatingRun) ++
        [.ask (.selects (some r) wetItem false)])).perform
          (.ask (.savedSelects "wire" wetItem true))).1 = .ok (.verdict true) := by
  have hitems := identified_singleton wetItem
  obtain ⟨r, w, w', hr, hid, hasked, hselects⟩ := exists_confused
  refine ⟨hitems, r, hid ▸ hr, ?_, ?_⟩
  · have hanswer := trusty_recreatedDesk.answer_eq hitems
      (q := .savedSelects "wire" wetItem true) rfl
    rw [anew, savedHolds_recreatedDesk] at hanswer
    exact hanswer
  · rw [after_append]
    show ((recreatedDesk.perform (.ask (.selects (some r) wetItem false))).2.perform _).1 = _
    rw [hasked]
    exact congrArg Prod.fst (perform_savedSelects hselects)

end Desk

end Newswire
