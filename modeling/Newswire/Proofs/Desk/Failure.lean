import Newswire.Proofs.Desk.Memory

/-!
# Requests that fail

A desk keeps its conditions, its rules, the index of their users, the distribution and the verdicts
apart, and writes them one after the other.  Nothing takes a write back, so a request that fails
leaves the desk as it was only if every check comes before the first write.

* `Desk.Action` : an operation step by step, and `Desk.carryOut` : every request as such an
  operation, with its checks and writes in the order in which they are made.
* `Desk.run_carryOut` : carrying a request out step by step is performing it.
* `Restrained` : an operation that writes nothing when it fails.  Checks may come before such an
  operation and writes after it (`Restrained.after_check`, `Restrained.bind`).
* `Desk.unchanged_of_error` : **after any run, a request that fails changes nothing** but the counts
  of look-ups among the verdicts.
-/

namespace Newswire

open Rulebook

/-! ### Operations that fail before they write -/

section Steps

variable {ε σ α β : Type}

/-- An operation that fails leaves the state as it was. -/
def Restrained (j : ExceptT ε (StateM σ) α) : Prop :=
  ∀ s e, (j.run s).1 = .error e → (j.run s).2 = s

/-- An operation that does not fail. -/
def Succeeds (j : ExceptT ε (StateM σ) α) : Prop := ∀ s, ∃ a, (j.run s).1 = .ok a

/-- A check of the state, which writes nothing. -/
def check (f : σ → Except ε α) : ExceptT ε (StateM σ) α := fun s => (f s, s)

theorem run_check (f : σ → Except ε α) (s : σ) : (check f).run s = (f s, s) := rfl

theorem exists_error_of_isNone {x : Except ε α × σ} (h : x.1.toOption.isNone = true) :
    ∃ e s, x = (.error e, s) := by
  obtain ⟨out, s⟩ := x
  cases out with
  | error e => exact ⟨e, s, rfl⟩
  | ok a => cases h

theorem succeeds_pure (a : α) : Succeeds (pure a : ExceptT ε (StateM σ) α) := fun _ => ⟨a, rfl⟩

theorem succeeds_modify (f : σ → σ) : Succeeds (modify f : ExceptT ε (StateM σ) PUnit) :=
  fun _ => ⟨⟨⟩, rfl⟩

theorem Succeeds.bind {j : ExceptT ε (StateM σ) α} {k : α → ExceptT ε (StateM σ) β}
    (hj : Succeeds j) (hk : ∀ a, Succeeds (k a)) : Succeeds (j >>= k) := by
  intro s
  obtain ⟨a, ha⟩ := hj s
  rw [Desk.run_bind]
  generalize j.run s = x at ha ⊢
  obtain ⟨out, t⟩ := x
  obtain rfl : out = .ok a := ha
  exact hk a t

theorem Succeeds.restrained {j : ExceptT ε (StateM σ) α} (h : Succeeds j) : Restrained j := by
  intro s e he
  obtain ⟨a, ha⟩ := h s
  cases ha.symm.trans he

/-- What follows a restrained operation may write if it does not fail. -/
theorem Restrained.bind {j : ExceptT ε (StateM σ) α} {k : α → ExceptT ε (StateM σ) β}
    (hj : Restrained j) (hk : ∀ a, Succeeds (k a)) : Restrained (j >>= k) := by
  intro s e
  have hs := hj s
  rw [Desk.run_bind]
  generalize j.run s = x at hs ⊢
  obtain ⟨out, t⟩ := x
  cases out with
  | error e' => exact fun _ => hs e' rfl
  | ok a =>
    intro he
    obtain ⟨b, hb⟩ := hk a t
    cases hb.symm.trans he

/-- A check may come before a restrained operation. -/
theorem Restrained.after_check {f : σ → Except ε α} {k : α → ExceptT ε (StateM σ) β}
    (hk : ∀ a, Restrained (k a)) : Restrained (check f >>= k) := by
  intro s e
  rw [Desk.run_bind, run_check]
  cases f s with
  | error e' => exact fun _ => rfl
  | ok a => exact hk a s e

end Steps

/-- The verdicts without the counts of look-ups. -/
def Verdicts.uncounted (v : Verdicts) : Verdicts := { v with hits := 0, misses := 0 }

namespace Desk

/-! ### The operations of a desk in steps -/

/-- An operation on a desk, step by step.  What a step has written stays when a later one fails. -/
abbrev Action (α : Type) := ExceptT RuleError (StateM Desk) α

/-- Write one of the stores of the desk. -/
def write (f : Desk → Desk) : Action PUnit := modify f

/-- The rulebook takes a condition that passes a further check. -/
def enterCondition (extra : Desk → Condition → Except RuleError Unit) (c : Condition) :
    Action Condition := do
  check fun _ => checkCondition c
  check fun d => extra d c
  write fun d => { d with book.conditions := d.book.conditions.insert c.id c }
  return c

/-- The rulebook takes a rule that passes a further check, as the next version.  The index is
written before the rules. -/
def enterRule (now : Timestamp) (extra : Desk → Rule → Except RuleError Unit) (r : Rule) :
    Action Rule := do
  check fun d => d.book.checkRule r
  check fun d => extra d r
  let previous ← check fun d => .ok (d.book.rules.get? r.id)
  let saved := nextVersion now previous r
  write fun d => { d with book.dependents := match previous with
    | some old => d.book.dependents.replace old saved
    | none => d.book.dependents.register saved }
  write fun d => { d with book.rules := d.book.rules.insert saved.id saved }
  return saved

/-- Forget the verdicts on the rules that a change concerns. -/
def forgetConcerned (concerned : Desk → IdSet) : Action PUnit :=
  write fun d => { d with verdicts := d.verdicts.forget (concerned d) }

/-- Something is not used. -/
def checkUnused (id : String) (referents : List Referent) : Except RuleError Unit :=
  if referents.isEmpty then .ok () else .error (.stillReferenced id referents)

/-- The rulebook gives a rule up, if it has it. -/
def takeRule (id : String) : Action Rule := do
  let r ← check fun d => d.book.rule id
  write fun d => { d with book.rules := d.book.rules.erase id }
  return r

/-- The rulebook gives a condition up, if it has it. -/
def takeCondition (id : String) : Action Condition := do
  let c ← check fun d => d.book.condition id
  write fun d => { d with book.conditions := d.book.conditions.erase id }
  return c

/-- Delete a rule that nothing uses. -/
def giveUpRule (id : String) : Action Rule := do
  let _ ← check fun d => d.book.rule id
  check fun d => checkUnused id
    ((d.book.dependents.usersOfRule id false).toList.map .rule ++ d.otherUsers id)
  let r ← takeRule id
  write fun d => { d with book.dependents := d.book.dependents.unregister r }
  forgetConcerned fun _ => (∅ : IdSet).insert id
  return r

/-- Delete a condition that no rule uses. -/
def giveUpCondition (id : String) : Action Condition := do
  check fun d => checkUnused id ((d.book.dependents.usersOfCondition id false).toList.map .rule)
  takeCondition id

/-- The products of a subscriber are saved. -/
def checkProducts (d : Desk) (s : Subscriber) : Except RuleError Unit :=
  match s.products.find? fun id => !d.distribution.products.contains id with
  | some missing => .error (.notFound .product missing)
  | none => .ok ()

/-- Write the distribution. -/
def writeDistribution (f : Distribution → Distribution) : Action PUnit :=
  write fun d => { d with distribution := f d.distribution }

/-- Carry out a change. -/
def carryOutChange : Change → Action Answer
  | .saveCondition c => do
    let saved ← enterCondition checkExpressible c
    forgetConcerned fun d => d.book.dependents.usersOfCondition saved.id true
    return .condition saved
  | .saveRule now r => do
    let saved ← enterRule now checkCompiles r
    forgetConcerned fun d => (d.book.dependents.usersOfRule saved.id true).insert saved.id
    return .rule saved
  | .deleteRule id => do return .rule (← giveUpRule id)
  | .deleteCondition id => do return .condition (← giveUpCondition id)
  | .saveProduct p => do
    check fun d => d.checkNamed p.ruleId?
    writeDistribution fun t => t.putProduct p
    return .done
  | .saveSubscriber s => do
    check fun d => d.checkProducts s
    writeDistribution fun t => t.putSubscriber s
    return .done
  | .saveRoute r => do
    check fun d => d.checkNamed r.ruleId
    writeDistribution fun t => t.putRoute r
    return .done

/-- Carry out a change of the rulebook alone. -/
def carryOutBookChange : BookChange → Action Answer
  | .saveCondition c => do return .condition (← enterCondition (fun _ _ => .ok ()) c)
  | .saveRule now r => do return .rule (← enterRule now (fun _ _ => .ok ()) r)

/-- Carry out a request. -/
def carryOut : Request → Action Answer
  | .change c => carryOutChange c
  | .changeBook c => carryOutBookChange c
  | .ask q => fun d => d.run (d.answer q)

variable {α β : Type} {d : Desk}

theorem run_check_bind (f : Desk → Except RuleError α) (k : α → Action β) (d : Desk) :
    (check f >>= k).run d = match f d with
      | .ok a => (k a).run d
      | .error e => (.error e, d) := by
  rw [run_bind, run_check]
  cases f d <;> rfl

theorem run_write_bind (f : Desk → Desk) (k : PUnit → Action β) (d : Desk) :
    (write f >>= k).run d = (k ⟨⟩).run (f d) := rfl

theorem run_return (a : α) (d : Desk) : (pure a : Action α).run d = (.ok a, d) := rfl

theorem run_carryOutChange (c : Change) (d : Desk) :
    (carryOutChange c).run d = d.settle (d.change c) := by
  -- both make the same checks, and what is written is the same desk
  cases c with
  | saveCondition c =>
    simp only [carryOutChange, enterCondition, forgetConcerned, bind_assoc, pure_bind,
      run_check_bind, run_write_bind, run_return, change, Desk.saveCondition,
      Rulebook.saveCondition]
    cases checkCondition c with
    | error e => rfl
    | ok _ => cases d.checkExpressible c <;> rfl
  | saveRule now r =>
    simp only [carryOutChange, enterRule, forgetConcerned, bind_assoc, pure_bind, run_check_bind,
      run_write_bind, run_return, change, Desk.saveRule, saveRuleChecked]
    cases d.book.checkRule r with
    | error e => rfl
    | ok _ => cases d.checkCompiles r <;> rfl
  | deleteRule id =>
    simp only [carryOutChange, giveUpRule, takeRule, forgetConcerned, checkUnused, bind_assoc,
      pure_bind, run_check_bind, run_write_bind, run_return, change, Desk.deleteRule,
      Rulebook.deleteRule]
    cases d.book.rule id with
    | error e => rfl
    | ok r =>
      generalize (d.book.dependents.usersOfRule id false).toList.map Referent.rule ++
        d.otherUsers id = referents
      cases referents <;> rfl
  | deleteCondition id =>
    simp only [carryOutChange, giveUpCondition, takeCondition, checkUnused, bind_assoc, pure_bind,
      run_check_bind, run_write_bind, run_return, change, Desk.deleteCondition,
      Rulebook.deleteCondition]
    cases (d.book.dependents.usersOfCondition id false).toList with
    | nil => cases d.book.condition id <;> rfl
    | cons u us => rfl
  | saveProduct p =>
    simp only [carryOutChange, writeDistribution, run_check_bind, run_write_bind, run_return,
      change, Desk.saveProduct]
    cases d.checkNamed p.ruleId? <;> rfl
  | saveSubscriber s =>
    simp only [carryOutChange, writeDistribution, run_check_bind, run_write_bind, run_return,
      change, Desk.saveSubscriber, checkProducts]
    cases s.products.find? fun id => !d.distribution.products.contains id <;> rfl
  | saveRoute r =>
    simp only [carryOutChange, writeDistribution, run_check_bind, run_write_bind, run_return,
      change, Desk.saveRoute]
    cases d.checkNamed r.ruleId <;> rfl

theorem run_carryOutBookChange (c : BookChange) (d : Desk) :
    (carryOutBookChange c).run d = d.settle (d.changeBook c) := by
  cases c with
  | saveCondition c =>
    simp only [carryOutBookChange, enterCondition, bind_assoc, pure_bind, run_check_bind,
      run_write_bind, run_return, changeBook, Rulebook.saveCondition]
    cases checkCondition c <;> rfl
  | saveRule now r =>
    simp only [carryOutBookChange, enterRule, bind_assoc, pure_bind, run_check_bind,
      run_write_bind, run_return, changeBook, Rulebook.saveRule, saveRuleChecked]
    cases d.book.checkRule r <;> rfl

/-- **Carrying a request out step by step is performing it.** -/
theorem run_carryOut (q : Request) (d : Desk) : (carryOut q).run d = d.perform q := by
  cases q with
  | change c => exact run_carryOutChange c d
  | changeBook c => exact run_carryOutBookChange c d
  | ask question => rfl

/-! ### Changes that fail -/

theorem succeeds_write (f : Desk → Desk) : Succeeds (write f) := succeeds_modify f

theorem restrained_enterCondition (extra : Desk → Condition → Except RuleError Unit)
    (c : Condition) : Restrained (enterCondition extra c) :=
  .after_check fun _ => .after_check fun _ =>
    ((succeeds_write _).bind fun _ => succeeds_pure c).restrained

theorem restrained_enterRule (now : Timestamp) (extra : Desk → Rule → Except RuleError Unit)
    (r : Rule) : Restrained (enterRule now extra r) :=
  .after_check fun _ => .after_check fun _ => .after_check fun _ =>
    ((succeeds_write _).bind fun _ => (succeeds_write _).bind fun _ => succeeds_pure _).restrained

theorem restrained_takeRule (id : String) : Restrained (takeRule id) :=
  .after_check fun r => ((succeeds_write _).bind fun _ => succeeds_pure r).restrained

theorem restrained_takeCondition (id : String) : Restrained (takeCondition id) :=
  .after_check fun c => ((succeeds_write _).bind fun _ => succeeds_pure c).restrained

theorem restrained_giveUpRule (id : String) : Restrained (giveUpRule id) :=
  .after_check fun _ => .after_check fun _ => (restrained_takeRule id).bind fun r =>
    (succeeds_write _).bind fun _ => (succeeds_write _).bind fun _ => succeeds_pure r

theorem restrained_giveUpCondition (id : String) : Restrained (giveUpCondition id) :=
  .after_check fun _ => restrained_takeCondition id

theorem restrained_writeDistribution (f : Desk → Except RuleError Unit)
    (g : Distribution → Distribution) (a : Answer) :
    Restrained (do check f; writeDistribution g; return a) :=
  .after_check fun _ => ((succeeds_write _).bind fun _ => succeeds_pure a).restrained

theorem restrained_carryOutChange (c : Change) : Restrained (carryOutChange c) := by
  cases c with
  | saveCondition c =>
    exact (restrained_enterCondition _ c).bind fun _ =>
      (succeeds_write _).bind fun _ => succeeds_pure _
  | saveRule now r =>
    exact (restrained_enterRule now _ r).bind fun _ =>
      (succeeds_write _).bind fun _ => succeeds_pure _
  | deleteRule id => exact (restrained_giveUpRule id).bind fun r => succeeds_pure _
  | deleteCondition id => exact (restrained_giveUpCondition id).bind fun c => succeeds_pure _
  | saveProduct p => exact restrained_writeDistribution _ _ _
  | saveSubscriber s => exact restrained_writeDistribution _ _ _
  | saveRoute r => exact restrained_writeDistribution _ _ _

theorem restrained_carryOutBookChange (c : BookChange) : Restrained (carryOutBookChange c) := by
  cases c with
  | saveCondition c => exact (restrained_enterCondition _ c).bind fun _ => succeeds_pure _
  | saveRule now r => exact (restrained_enterRule now _ r).bind fun _ => succeeds_pure _

/-! ### Questions that fail -/

theorem uncounted_get (v : Verdicts) (key : VerdictKey) : (v.get key).2.uncounted = v.uncounted := by
  unfold Verdicts.get
  split
  · rfl
  · split <;> rfl

/-- A decision that fails leaves the verdicts as they were, but for the counts. -/
def Quiet (j : Judging α) : Prop :=
  ∀ v e, (j.run v).1 = .error e → (j.run v).2.uncounted = v.uncounted

theorem quiet_judge (d : Desk) (r : Rule) (item : Json) : Quiet (d.judge r item) := by
  intro v e
  rw [run_judge]
  cases d.book.holds d.schema item (some r) with
  | error e' => exact fun _ => rfl
  | ok verdict => exact fun h => nomatch h

theorem quiet_selects (d : Desk) (r : Option Rule) (item : Json) (memory : Bool) :
    Quiet (d.selects r item memory) := by
  cases r with
  | none => exact fun v e h => nomatch h
  | some r =>
    intro v e
    rw [run_selects]
    cases hkey : verdictKey? v.settings r item with
    | none => exact quiet_judge d r item v e
    | some key =>
      cases memory with
      | false => exact quiet_judge d r item v e
      | true =>
        have hcounted := uncounted_get v key
        dsimp only
        generalize v.get key = got at hcounted ⊢
        obtain ⟨found, w⟩ := got
        cases found with
        | none => exact fun h => (quiet_judge d r item w e h).trans hcounted
        | some verdict => exact fun h => nomatch h

/-- What is looked up before a decision leaves the verdicts alone. -/
theorem Quiet.after_liftM {x : Except RuleError α} {k : α → Judging β} (hk : ∀ a, Quiet (k a)) :
    Quiet (liftM x >>= k) := by
  intro v e
  rw [run_bind, run_liftM]
  cases x with
  | error e' => exact fun _ => rfl
  | ok a => exact hk a v e

theorem Quiet.told {j : Judging α} (hj : Quiet j) (f : α → Answer) :
    Quiet (do return f (← j)) := by
  intro v e
  have hv := hj v
  rw [run_bind]
  generalize j.run v = x at hv ⊢
  obtain ⟨out, w⟩ := x
  cases out with
  | error e' => exact fun _ => hv e' rfl
  | ok a => exact fun h => nomatch h

theorem quiet_savedSelects (d : Desk) (id : String) (item : Json) (memory : Bool) :
    Quiet (d.savedSelects id item memory) :=
  .after_liftM fun r => quiet_selects d (some r) item memory

theorem quiet_applies (d : Desk) (id : String) (item : Json) : Quiet (d.applies id item) := by
  unfold applies
  cases d.distribution.routes.get? id with
  | none => exact fun v e _ => rfl
  | some route =>
    cases hrule : route.ruleId with
    | none => simp only [hrule]; exact fun v e h => nomatch h
    | some ruleId => simp only [hrule]; exact quiet_savedSelects d ruleId item true

/-- The request is a change or a question, but for the question whether a subscriber gets an item,
which may decide about many rules. -/
def Request.Single : Request → Prop
  | .ask (.receives ..) => False
  | .ask _ | .change _ | .changeBook _ => True

theorem quiet_answer (d : Desk) {question : Question} (h : Request.Single (.ask question)) :
    Quiet (d.answer question) := by
  cases question with
  | selects r item memory => exact (quiet_selects d r item memory).told _
  | savedSelects id item memory => exact (quiet_savedSelects d id item memory).told _
  | filterItems id items => exact .after_liftM fun found => fun v e h => nomatch h
  | receives id item => exact h.elim
  | applies id item => exact (quiet_applies d id item).told _

/-- The desk without the counts of look-ups among its verdicts. -/
def uncounted (d : Desk) : Desk := { d with verdicts := d.verdicts.uncounted }

/-- **A request that fails changes nothing.**  Carried out step by step it gives what performing it
gives; a change leaves the desk exactly as it was, and a question leaves all but the counts of
look-ups. -/
theorem unchanged_of_error {d d' : Desk} {q : Request} (hq : q.Single) {e : RuleError}
    (h : (carryOut q).run d = (.error e, d')) :
    d.perform q = (.error e, d') ∧ d'.uncounted = d.uncounted ∧
      ((∀ question, q ≠ .ask question) → d' = d) := by
  refine ⟨(run_carryOut q d).symm.trans h, ?_⟩
  have herror : ((carryOut q).run d).1 = .error e := congrArg Prod.fst h
  obtain rfl : ((carryOut q).run d).2 = d' := congrArg Prod.snd h
  cases q with
  | change c =>
    have hsame := restrained_carryOutChange c d e herror
    exact ⟨congrArg uncounted hsame, fun _ => hsame⟩
  | changeBook c =>
    have hsame := restrained_carryOutBookChange c d e herror
    exact ⟨congrArg uncounted hsame, fun _ => hsame⟩
  | ask question =>
    have hquiet := quiet_answer d hq
    refine ⟨?_, fun hask => absurd rfl (hask question)⟩
    exact congrArg (fun v => ({ d with verdicts := v } : Desk)) (hquiet d.verdicts e herror)

/-- The rule names itself as a parent. -/
def circular : Rule := .new default "wire" "wire" [⟨.ofList ["flood"], .ofList ["wire"]⟩]

/-- The rule is not saved, and its parent is unknown. -/
def stray : Rule := .new default "" "stray" [⟨∅, .ofList ["storm"]⟩]

/-- The desk after a run. -/
def changedDesk : Desk := (Desk.new (.ofLayout {}) {}).after changedRun

/-- Neither a saved rule that is to become its own parent nor a rule with an unknown parent gets
past the checks. -/
theorem unchanged_of_error_changedRun :
    (∃ e d', (carryOut (.change (.saveRule default circular))).run changedDesk = (.error e, d') ∧
      changedDesk.perform (.change (.saveRule default circular)) = (.error e, d') ∧
      d' = changedDesk) ∧
    ∃ e d', (carryOut (.ask (.selects (some stray) (.obj []) true))).run changedDesk =
        (.error e, d') ∧
      changedDesk.perform (.ask (.selects (some stray) (.obj []) true)) = (.error e, d') ∧
      d'.uncounted = changedDesk.uncounted := by
  constructor
  · obtain ⟨e, d', hout⟩ := exists_error_of_isNone
      (x := (carryOut (.change (.saveRule default circular))).run changedDesk) (by decide +kernel)
    have hsingle : (Request.change (.saveRule default circular)).Single := trivial
    obtain ⟨hperform, -, hsame⟩ := unchanged_of_error hsingle hout
    exact ⟨e, d', hout, hperform, hsame fun _ h => nomatch h⟩
  · obtain ⟨e, d', hout⟩ := exists_error_of_isNone
      (x := (carryOut (.ask (.selects (some stray) (.obj []) true))).run changedDesk)
      (by decide +kernel)
    have hsingle : (Request.ask (.selects (some stray) (.obj []) true)).Single := trivial
    obtain ⟨hperform, hsame, -⟩ := unchanged_of_error hsingle hout
    exact ⟨e, d', hout, hperform, hsame⟩

end Desk

end Newswire
