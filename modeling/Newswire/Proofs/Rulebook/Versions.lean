import Mathlib.Algebra.Group.Nat.Defs
import Newswire.Proofs.Rulebook.Exactness

/-!
# Counting the versions of a rule

A rule that is saved in place of another one gets the number after that of the other one.  The
number of the first version is the one that it comes with, so the count may begin anywhere, and it
is kept in 64 bits.

* `Rulebook.savedVersions`, `Rulebook.versions` : the versions of a rule that a run of edits saves,
  and with them the one that is saved before.
* `Rulebook.Retains` : no edit of the run deletes the rule.
* `Rulebook.isChain_versions` : as long as the rule is not deleted, every version has the number
  after that of the version before it, and a number is used again only after all the others
  (`Rule.toNat_revision_of_isChain`).
* `Rulebook.countsVersions_afterEdits` : **the number of an update is one more than the number that
  it replaces, unless that is the largest one, after which the count begins at zero**, and no number
  comes twice between two deletions of a rule, unless it is saved more than 2 ^ 64 times.
* `Rulebook.count_begins_again` : a rule that comes with the largest number.
-/

namespace Newswire

namespace Rule

/-- The second version has the number after that of the first one. -/
def Next (old new : Rule) : Prop := new.revision = old.revision + 1

variable {old new : Rule} {versions : List Rule}

theorem Next.toNat_eq (h : Next old new) :
    new.revision.toNat = (old.revision.toNat + 1) % 2 ^ 64 := by
  rw [h, UInt64.toNat_add]
  rfl

/-- The numbers of versions that follow one another go on from the first one. -/
theorem toNat_revision_of_isChain (h : versions.IsChain Next) (hne : 0 < versions.length) {i : Nat}
    (hi : i < versions.length) :
    versions[i].revision.toNat = (versions[0].revision.toNat + i) % 2 ^ 64 := by
  induction i with
  | zero =>
    have := versions[0].revision.toNat_lt
    omega
  | succ i ih =>
    have hnext := (List.isChain_iff_getElem.1 h i hi).toNat_eq
    have hbefore := ih (Nat.lt_of_succ_lt hi)
    omega

/-- Versions have different numbers as long as there are no more of them than numbers. -/
theorem nodup_revision_of_isChain (h : versions.IsChain Next) (hlength : versions.length ≤ 2 ^ 64) :
    (versions.map revision).Nodup := by
  refine List.pairwise_map.2 (List.pairwise_iff_getElem.2 fun i j hi hj hij heq => ?_)
  have hne : 0 < versions.length := Nat.lt_of_le_of_lt (Nat.zero_le i) hi
  have hfirst := toNat_revision_of_isChain h hne hi
  have hsecond := toNat_revision_of_isChain h hne hj
  have hsame := congrArg UInt64.toNat heq
  omega

theorem isChain_succ_of_isChain (h : versions.IsChain Next)
    (hroom : ∀ first ∈ versions.head?, first.revision.toNat + versions.length ≤ 2 ^ 64) :
    versions.IsChain fun old new => new.revision.toNat = old.revision.toNat + 1 := by
  refine List.isChain_iff_getElem.2 fun i hi => ?_
  have hne : 0 < versions.length := Nat.lt_of_le_of_lt (Nat.zero_le _) hi
  have hfirst := hroom versions[0] (by simp [List.head?_eq_getElem?, hne])
  have hold := toNat_revision_of_isChain h hne (Nat.lt_of_succ_lt hi)
  have hnew := toNat_revision_of_isChain h hne hi
  omega

end Rule

namespace Rulebook

variable {b b' : Rulebook} {r old saved : Rule} {now : Timestamp} {id : String}
  {extra : Rule → Except RuleError Unit}

/-! ### Saved versions -/

/-- The version of the rule that an edit saves, if it saves one. -/
def savedBy (b : Rulebook) (id : String) : Edit → Option Rule
  | .saveRule now extra r =>
    if r.id = id then (b.saveRuleChecked now extra r).toOption.map Prod.fst else none
  | .saveCondition _ | .deleteRule .. | .deleteCondition _ => none

/-- The versions of the rule that a run of edits saves, in their order. -/
def savedVersions (b : Rulebook) (id : String) : List Edit → List Rule
  | [] => []
  | e :: rest => (b.savedBy id e).toList ++ (b.edited e).savedVersions id rest

/-- The version that is saved at first, and those that edits save after it. -/
def versions (b : Rulebook) (id : String) (edits : List Edit) : List Rule :=
  (b.rules.get? id).toList ++ b.savedVersions id edits

/-- The edit deletes the rule. -/
def Deletes (b : Rulebook) (id : String) (e : Edit) : Prop :=
  ∃ others removed b', e = .deleteRule others id ∧ b.deleteRule others id = .ok (removed, b')

/-- No edit of the run deletes the rule. -/
def Retains (b : Rulebook) (id : String) : List Edit → Prop
  | [] => True
  | e :: rest => ¬b.Deletes id e ∧ (b.edited e).Retains id rest

theorem revision_of_update (hold : b.rules.get? r.id = some old)
    (h : b.saveRuleChecked now extra r = .ok (saved, b')) : Rule.Next old saved := by
  obtain ⟨-, -, rfl, -⟩ := saveRuleChecked_eq_ok_iff.1 h
  rw [hold]
  rfl

theorem revision_of_first (hnew : b.rules.get? r.id = none)
    (h : b.saveRuleChecked now extra r = .ok (saved, b')) : saved.revision = max r.revision 1 := by
  obtain ⟨-, -, rfl, -⟩ := saveRuleChecked_eq_ok_iff.1 h
  rw [hnew]
  rfl

theorem get?_of_saveRuleChecked (h : b.saveRuleChecked now extra r = .ok (saved, b'))
    (id : String) : b'.rules.get? id = if r.id = id then some saved else b.rules.get? id := by
  obtain ⟨-, -, rfl, rfl⟩ := saveRuleChecked_eq_ok_iff.1 h
  show (b.rules.insert _ _).get? id = _
  rw [Table.get?_insert, id_nextVersion]
  exact if_congr eq_comm rfl rfl

theorem edited_of_ok {e : Edit} (h : b.edit e = .ok b') : b.edited e = b' := by
  unfold edited
  rw [h]

theorem edited_of_error {e : Edit} {error : RuleError} (h : b.edit e = .error error) :
    b.edited e = b := by
  unfold edited
  rw [h]

theorem get?_edited_saveRule (b : Rulebook) (now : Timestamp)
    (extra : Rule → Except RuleError Unit) (r : Rule) (id : String) :
    (b.edited (.saveRule now extra r)).rules.get? id =
      (b.savedBy id (.saveRule now extra r)).or (b.rules.get? id) := by
  show _ = (if r.id = id then (b.saveRuleChecked now extra r).toOption.map Prod.fst else none).or _
  cases hsave : b.saveRuleChecked now extra r with
  | error error =>
    have hedit : b.edit (.saveRule now extra r) = .error error := by
      show (b.saveRuleChecked now extra r >>= _) = _
      rw [hsave]
      rfl
    rw [edited_of_error hedit]
    split <;> rfl
  | ok x =>
    obtain ⟨saved, b'⟩ := x
    have hedit : b.edit (.saveRule now extra r) = .ok b' := by
      show (b.saveRuleChecked now extra r >>= _) = _
      rw [hsave]
      rfl
    rw [edited_of_ok hedit, get?_of_saveRuleChecked hsave]
    by_cases hid : r.id = id
    · rw [if_pos hid, if_pos hid]
      rfl
    · rw [if_neg hid, if_neg hid]
      rfl

theorem get?_edited_of_others {e : Edit} (hkeeps : ¬b.Deletes id e)
    (h : ∀ now extra r, e ≠ .saveRule now extra r) :
    (b.edited e).rules.get? id = b.rules.get? id := by
  cases hedit : b.edit e with
  | error error => rw [edited_of_error hedit]
  | ok b' =>
    rw [edited_of_ok hedit]
    cases e with
    | saveCondition c =>
      obtain ⟨-, rfl⟩ := saveCondition_eq_ok_iff.1 hedit
      rfl
    | saveRule now extra r => exact absurd rfl (h now extra r)
    | deleteRule others k =>
      obtain ⟨⟨removed, _⟩, hdelete, hb'⟩ := bind_eq_ok_iff.1 hedit
      obtain rfl := Except.ok.inj hb'
      have hne : id ≠ k := by
        rintro rfl
        exact hkeeps ⟨others, removed, _, rfl, hdelete⟩
      obtain ⟨-, -, -, rfl⟩ := deleteRule_eq_ok_iff.1 hdelete
      show (b.rules.erase k).get? id = _
      rw [Table.get?_erase, if_neg hne]
    | deleteCondition k =>
      obtain ⟨⟨removed, _⟩, hdelete, hb'⟩ := bind_eq_ok_iff.1 hedit
      obtain rfl := Except.ok.inj hb'
      obtain ⟨-, -, rfl⟩ := deleteCondition_eq_ok_iff.1 hdelete
      rfl

/-- After an edit that does not delete the rule, it is saved as the edit saved it, or as before. -/
theorem get?_edited {e : Edit} (hkeeps : ¬b.Deletes id e) :
    (b.edited e).rules.get? id = (b.savedBy id e).or (b.rules.get? id) := by
  cases e with
  | saveRule now extra r => exact get?_edited_saveRule b now extra r id
  | saveCondition | deleteRule | deleteCondition =>
    exact get?_edited_of_others hkeeps fun _ _ _ h => nomatch h

/-- What an edit saves has the number after that of what is saved. -/
theorem next_of_savedBy {e : Edit} (hold : b.rules.get? id = some old)
    (h : b.savedBy id e = some saved) : Rule.Next old saved := by
  cases e with
  | saveRule now extra r =>
    have h : (if r.id = id then (b.saveRuleChecked now extra r).toOption.map Prod.fst else none) =
        some saved := h
    by_cases hid : r.id = id
    · rw [if_pos hid] at h
      cases hsave : b.saveRuleChecked now extra r with
      | error _ =>
        rw [hsave] at h
        cases h
      | ok x =>
        rw [hsave] at h
        cases h
        exact revision_of_update (hid ▸ hold) hsave
    · rw [if_neg hid] at h
      cases h
  | saveCondition | deleteRule | deleteCondition => cases h

/-- **As long as a rule is not deleted, every version has the number after that of the one before
it.** -/
theorem isChain_versions {edits : List Edit} (h : b.Retains id edits) :
    (b.versions id edits).IsChain Rule.Next := by
  induction edits generalizing b with
  | nil =>
    show ((b.rules.get? id).toList ++ []).IsChain Rule.Next
    cases b.rules.get? id with
    | none => exact .nil
    | some old => exact .singleton old
  | cons e rest ih =>
    obtain ⟨hkeeps, hrest⟩ := h
    have hchain := ih hrest
    rw [versions, get?_edited hkeeps] at hchain
    show ((b.rules.get? id).toList ++ ((b.savedBy id e).toList ++ _)).IsChain Rule.Next
    cases hsaved : b.savedBy id e with
    | none =>
      rw [hsaved] at hchain
      exact hchain
    | some saved =>
      rw [hsaved] at hchain
      cases hold : b.rules.get? id with
      | none => exact hchain
      | some old => exact List.isChain_cons_cons.2 ⟨next_of_savedBy hold hsaved, hchain⟩

/-! ### Counting -/

/-- How the versions of the rules are counted, now and in what follows. -/
structure CountsVersions (b : Rulebook) : Prop where
  /-- The first version of a rule keeps the number that it comes with, but it is not zero. -/
  first : ∀ {now extra r saved b'}, b.rules.get? r.id = none →
    b.saveRuleChecked now extra r = .ok (saved, b') →
      saved.revision.toNat = max r.revision.toNat 1
  /-- The number of an update is one more than the one that it replaces, unless that is the largest;
  then it is zero. -/
  update : ∀ {now extra r old saved b'}, b.rules.get? r.id = some old →
    b.saveRuleChecked now extra r = .ok (saved, b') →
      saved.revision.toNat =
        if old.revision.toNat + 1 < 2 ^ 64 then old.revision.toNat + 1 else 0
  /-- As long as a rule is not deleted, and the largest number is not reached, every version has one
  more than the one before it. -/
  grows : ∀ {id edits}, b.Retains id edits →
    (∀ v ∈ (b.versions id edits).head?,
      v.revision.toNat + (b.versions id edits).length ≤ 2 ^ 64) →
    (b.versions id edits).IsChain fun old new => new.revision.toNat = old.revision.toNat + 1
  /-- As long as a rule is not deleted, no number comes twice among 2 ^ 64 versions. -/
  distinct : ∀ {id edits}, b.Retains id edits →
    (b.versions id edits).length ≤ 2 ^ 64 → ((b.versions id edits).map Rule.revision).Nodup

theorem countsVersions (b : Rulebook) : b.CountsVersions where
  first {_ _ r saved _} hnew h := by
    rw [revision_of_first hnew h]
    show (if r.revision ≤ 1 then 1 else r.revision).toNat = _
    split
    · next hle =>
      have hle := UInt64.le_iff_toNat_le.1 hle
      rw [UInt64.toNat_one] at hle ⊢
      omega
    · next hlt =>
      have hlt := UInt64.lt_iff_toNat_lt.1 (UInt64.not_le.1 hlt)
      rw [UInt64.toNat_one] at hlt
      omega
  update {_ _ _ old _ _} hold h := by
    rw [(revision_of_update hold h).toNat_eq]
    have := old.revision.toNat_lt
    split <;> omega
  grows hkeeps hroom := Rule.isChain_succ_of_isChain (isChain_versions hkeeps) hroom
  distinct hkeeps hlength := Rule.nodup_revision_of_isChain (isChain_versions hkeeps) hlength

/-- **After any edits of a new rulebook the versions of a rule are counted one by one in 64 bits**:
an update that replaces the largest number begins again at zero, and between two deletions of a rule
no number comes twice before all others have been used. -/
theorem countsVersions_afterEdits (edits : List Edit) :
    ((∅ : Rulebook).afterEdits edits).CountsVersions :=
  countsVersions _

/-- A rule that comes with the largest number. -/
def countedOut : Rule :=
  { Rule.new default "wire" "wire" [⟨.ofList ["flood"], ∅⟩] with revision := .ofNat (2 ^ 64 - 1) }

/-- The rule is saved for the first time, with its condition. -/
def countedOutRun : List Edit :=
  [.saveCondition (.ofParts "flood" "headline" .like "flood"),
    .saveRule default (fun _ => .ok ()) countedOut]

/-- **The count begins again at zero** when a rule is saved that has the largest number. -/
theorem count_begins_again : ∃ old saved b',
    ((∅ : Rulebook).afterEdits countedOutRun).rules.get? "wire" = some old ∧
      ((∅ : Rulebook).afterEdits countedOutRun).saveRule default countedOut = .ok (saved, b') ∧
      old.revision.toNat = 2 ^ 64 - 1 ∧ saved.revision.toNat = 0 := by
  obtain ⟨old, hold, hfacts⟩ := Option.bind_eq_some_iff.1
    (show (((∅ : Rulebook).afterEdits countedOutRun).rules.get? "wire").bind (fun old =>
      (((∅ : Rulebook).afterEdits countedOutRun).saveRule default countedOut).toOption.map fun x =>
        (old.revision.toNat, x.1.revision.toNat)) = some (2 ^ 64 - 1, 0) by decide +kernel)
  obtain ⟨⟨saved, b'⟩, hsaved, hnumbers⟩ := Option.map_eq_some_iff.1 hfacts
  obtain ⟨hlargest, hzero⟩ := Prod.mk.inj hnumbers
  exact ⟨old, saved, b', hold, eq_ok_of_toOption hsaved, hlargest, hzero⟩

end Rulebook

end Newswire
