import Newswire.Desk.Maintenance
import Newswire.Proofs.Query.Compilation

/-!
# What is checked of a condition that is asked about

Whom a condition concerns may be asked of any condition, saved or not.  Before that is answered it is
checked whether the condition can be written as a query; before the condition is saved it is checked
first whether it is in order by itself.  Most of what is wrong with a condition by itself is found when
it is written as a query, but not all of it.

* `Desk.checkExpressible_eq` : a condition is written as a query after one check of its value.
* `Condition.isOverlooked` : a field or a value is missing that this check does not miss.
* `Desk.inquiryChecked` : **asking about a condition is refused with the code with which saving it is
  refused, unless the condition is overlooked**, and what cannot be asked about cannot be saved.
* `Desk.noHeadline_overlooked` : an equality without a value is overlooked, and so is a blank field.
-/

namespace Newswire

variable {α β : Type}

/-- The code of the error with which an operation fails. -/
def refusal? : Except RuleError α → Option String
  | .ok _ => none
  | .error e => some e.code

theorem Alike.refusal?_eq {x : Except RuleError α} {y : Except RuleError β} (h : Alike id x y) :
    refusal? x = refusal? y := by
  cases h with
  | ok a b => rfl
  | error e => rfl

/-! ### The two checks -/

namespace Condition

/-- The field is blank. -/
def lacksField (c : Condition) : Bool := (Text.trim c.field).isEmpty

/-- The value is empty, or has no entries where it is a list. -/
def lacksValue (c : Condition) : Bool :=
  if c.operator.isList then (listEntries c.value).isEmpty else c.value.isEmpty

/-- What is wrong with a condition without a value. -/
def valueFlaw (c : Condition) : ConditionFlaw :=
  if c.operator.isList then .noEntries else .missingValue

/-- The condition lacks something that is not missed when it is written as a query: its field, or the
value that something has to equal. -/
def isOverlooked (c : Condition) : Bool :=
  if c.operator = .eq then c.lacksField || c.lacksValue else c.lacksField && !c.lacksValue

variable {c : Condition} {values : ValueKind} {kind : QueryKind}

theorem checkCondition_eq (hid : c.id ≠ "") : Rulebook.checkCondition c =
    if c.lacksField then .error (.invalidCondition c.id .blankField)
    else if c.lacksValue then .error (.invalidCondition c.id c.valueFlaw) else .ok () := by
  have hempty : c.id.isEmpty = false := by simpa using hid
  unfold Rulebook.checkCondition Rulebook.conditionFlaw? lacksField lacksValue valueFlaw
  rw [hempty]
  cases (Text.trim c.field).isEmpty with
  | true => rfl
  | false =>
    cases c.operator.isList with
    | true => cases (listEntries c.value).isEmpty <;> rfl
    | false => cases c.value.isEmpty <;> rfl

theorem checkValue_of_eq (hop : c.operator = .eq) : c.checkValue values kind = .ok () := by
  rw [checkValue, hop]

theorem checkValue_of_lacksValue (hop : c.operator ≠ .eq) (h : c.lacksValue = true) :
    c.checkValue values kind = .error (.invalidCondition c.id c.valueFlaw) := by
  unfold lacksValue at h
  unfold checkValue valueFlaw
  cases hoperator : c.operator with
  | eq => exact absurd hoperator hop
  | like | startsWith | endsWith =>
    rw [hoperator] at h
    have hvalue : c.value.isEmpty = true := h
    simp only [patternValue, hvalue]
    rfl
  | isIn | notIn =>
    rw [hoperator] at h
    have hvalues : c.values.isEmpty = true := by
      rw [Condition.values, hoperator]
      exact h
    simp only [entriesFor, hvalues]
    rfl

theorem checkValue_of_not_lacksValue (h : c.lacksValue = false) :
    c.checkValue values kind = .ok () ∨
      ∃ entry, c.checkValue values kind = .error (.inexpressible c.id kind c.field entry) := by
  unfold lacksValue at h
  unfold checkValue
  cases hoperator : c.operator with
  | eq => exact Or.inl rfl
  | like | startsWith | endsWith =>
    rw [hoperator] at h
    have hvalue : c.value.isEmpty = false := h
    simp only [patternValue, hvalue]
    exact Or.inl rfl
  | isIn | notIn =>
    rw [hoperator] at h
    have hvalues : c.values.isEmpty = false := by
      rw [Condition.values, hoperator]
      exact h
    simp only [entriesFor, hvalues]
    cases values with
    | text => exact Or.inl rfl
    | number =>
      cases c.values.find? fun e => (numberOf? e).isNone with
      | none => exact Or.inl rfl
      | some bad => exact Or.inr ⟨bad, rfl⟩

/-- An overlooked condition is refused by itself, but not for its value. -/
theorem checks_of_isOverlooked (hid : c.id ≠ "") (h : c.isOverlooked = true)
    (values : ValueKind) (kind : QueryKind) :
    (∃ flaw, Rulebook.checkCondition c = .error (.invalidCondition c.id flaw)) ∧
    (c.checkValue values kind = .ok () ∨
      ∃ entry, c.checkValue values kind = .error (.inexpressible c.id kind c.field entry)) := by
  unfold isOverlooked at h
  rw [checkCondition_eq hid]
  by_cases hop : c.operator = .eq
  · rw [if_pos hop, Bool.or_eq_true] at h
    refine ⟨?_, Or.inl (checkValue_of_eq hop)⟩
    cases hfield : c.lacksField with
    | true => exact ⟨.blankField, rfl⟩
    | false => exact ⟨c.valueFlaw, by rw [h.resolve_left (by simp [hfield])]; rfl⟩
  · rw [if_neg hop, Bool.and_eq_true, Bool.not_eq_true'] at h
    exact ⟨⟨.blankField, by rw [h.1]; rfl⟩, checkValue_of_not_lacksValue h.2⟩

/-- Any other condition is refused by itself only for a value that is refused as well, unless its field
is blank, and then with the same code. -/
theorem checks_of_not_isOverlooked (hid : c.id ≠ "") (h : c.isOverlooked = false)
    (values : ValueKind) (kind : QueryKind) :
    (c.lacksField = false → (do
      Rulebook.checkCondition c
      c.checkValue values kind) = c.checkValue values kind) ∧
    (c.lacksField = true →
      c.checkValue values kind = .error (.invalidCondition c.id c.valueFlaw)) := by
  unfold isOverlooked at h
  rw [checkCondition_eq hid]
  by_cases hop : c.operator = .eq
  · rw [if_pos hop, Bool.or_eq_false_iff] at h
    exact ⟨fun _ => by rw [h.1, h.2]; rfl, fun hfield => by rw [h.1] at hfield; cases hfield⟩
  · rw [if_neg hop] at h
    constructor
    · intro hfield
      rw [hfield]
      cases hvalue : c.lacksValue with
      | true => rw [checkValue_of_lacksValue hop hvalue]; rfl
      | false => rfl
    · intro hfield
      rw [hfield, Bool.true_and, Bool.not_eq_false'] at h
      exact checkValue_of_lacksValue hop h

end Condition

namespace Desk

variable {d : Desk} {c : Condition}

/-- The value of a condition is checked for store queries; search queries have no more to say. -/
theorem checkExpressible_eq (d : Desk) (c : Condition) :
    d.checkExpressible c = c.checkValue (d.schema.resolve c.field).values .store := by
  have hstore : Alike id (c.checkValue (d.schema.resolve c.field).values .store)
      (StoreQuery.condition d.schema.layout (d.schema.resolve c.field) c) :=
    StoreQuery.alike_condition _
  have hsearch : Alike id (c.checkValue (d.schema.resolve c.field).values .search)
      (SearchQuery.condition d.schema.layout (d.schema.resolve c.field) c) :=
    SearchQuery.alike_condition _
  have hkinds : Alike (RuleError.aimedAt .search)
      (c.checkValue (d.schema.resolve c.field).values .store)
      (c.checkValue (d.schema.resolve c.field).values .search) := Condition.alike_checkValue _
  unfold checkExpressible
  dsimp only
  cases hvalue : c.checkValue (d.schema.resolve c.field).values .store with
  | error e =>
    rw [hstore.eq_error hvalue]
    rfl
  | ok _ =>
    obtain ⟨q, hq⟩ := hstore.exists_ok_iff.1 ⟨_, hvalue⟩
    obtain ⟨q', hq'⟩ := hsearch.exists_ok_iff.1 (hkinds.exists_ok_iff.1 ⟨_, hvalue⟩)
    rw [hq, hq']
    rfl

theorem alike_subscribersConcerned (d : Desk) (c : Condition) :
    Alike id (c.checkValue (d.schema.resolve c.field).values .store) (d.subscribersConcerned c) := by
  rw [← checkExpressible_eq]
  exact alike_bind_pure _ _

theorem alike_saveCondition (d : Desk) (c : Condition) :
    Alike id (do
      Rulebook.checkCondition c
      c.checkValue (d.schema.resolve c.field).values .store) (d.saveCondition c) := by
  rw [← checkExpressible_eq]
  unfold saveCondition Rulebook.saveCondition
  cases Rulebook.checkCondition c with
  | error e => exact .error e
  | ok _ => exact alike_bind_pure _ _

/-- How asking about a condition is refused, compared with saving it. -/
structure ChecksInquiry (d : Desk) (c : Condition) : Prop where
  /-- What cannot be asked about cannot be saved. -/
  unsaved : ∀ e, d.subscribersConcerned c = .error e → ∃ e', d.saveCondition c = .error e'
  /-- Both succeed, or both fail with one code, exactly if the condition is not overlooked. -/
  alike_iff : refusal? (d.subscribersConcerned c) = refusal? (d.saveCondition c) ↔
    c.isOverlooked = false
  /-- With a field they fail with the same error altogether. -/
  same_error : c.isOverlooked = false → c.lacksField = false →
    ∀ e, d.subscribersConcerned c = .error e ↔ d.saveCondition c = .error e
  /-- What is overlooked cannot be saved, and is refused for a number at most when it is asked
  about. -/
  overlooked : c.isOverlooked = true → refusal? (d.saveCondition c) = some "INVALID_CONDITION" ∧
    (refusal? (d.subscribersConcerned c) = none ∨
      refusal? (d.subscribersConcerned c) = some "INEXPRESSIBLE_CONDITION")

/-- The value is checked last before a condition is saved. -/
theorem exists_error_of_subscribersConcerned {e : RuleError}
    (h : d.subscribersConcerned c = .error e) : ∃ e', d.saveCondition c = .error e' := by
  have hvalue := (d.alike_subscribersConcerned c).eq_error_iff.2 h
  have hsave := d.alike_saveCondition c
  rw [hvalue] at hsave
  cases hcheck : Rulebook.checkCondition c with
  | error e' => exact ⟨e', hsave.eq_error (by rw [hcheck]; rfl)⟩
  | ok _ => exact ⟨e, hsave.eq_error (by rw [hcheck]; rfl)⟩

theorem refusals_of_isOverlooked (hid : c.id ≠ "") (h : c.isOverlooked = true) :
    refusal? (d.saveCondition c) = some "INVALID_CONDITION" ∧
    (refusal? (d.subscribersConcerned c) = none ∨
      refusal? (d.subscribersConcerned c) = some "INEXPRESSIBLE_CONDITION") := by
  rw [← (d.alike_saveCondition c).refusal?_eq, ← (d.alike_subscribersConcerned c).refusal?_eq]
  obtain ⟨⟨flaw, hcheck⟩, hvalue⟩ :=
    Condition.checks_of_isOverlooked hid h (d.schema.resolve c.field).values .store
  refine ⟨by rw [hcheck]; rfl, ?_⟩
  rcases hvalue with hvalue | ⟨entry, hvalue⟩
  · exact Or.inl (by rw [hvalue]; rfl)
  · exact Or.inr (by rw [hvalue]; rfl)

theorem error_iff_of_not_isOverlooked (hid : c.id ≠ "") (h : c.isOverlooked = false)
    (hfield : c.lacksField = false) (e : RuleError) :
    d.subscribersConcerned c = .error e ↔ d.saveCondition c = .error e := by
  rw [← (d.alike_subscribersConcerned c).eq_error_iff, ← (d.alike_saveCondition c).eq_error_iff,
    (Condition.checks_of_not_isOverlooked hid h _ _).1 hfield]

theorem refusal?_of_not_isOverlooked (hid : c.id ≠ "") (h : c.isOverlooked = false) :
    refusal? (d.subscribersConcerned c) = refusal? (d.saveCondition c) := by
  obtain ⟨hsame, hblank⟩ :=
    Condition.checks_of_not_isOverlooked hid h (d.schema.resolve c.field).values .store
  rw [← (d.alike_saveCondition c).refusal?_eq, ← (d.alike_subscribersConcerned c).refusal?_eq]
  cases hfield : c.lacksField with
  | false => rw [hsame hfield]
  | true =>
    -- both codes are the one for a condition that is wrong by itself
    rw [hblank hfield, Condition.checkCondition_eq hid, hfield]
    rfl

/-- **Asking whom a condition with an identifier concerns is refused like saving it, unless the
condition is overlooked.** -/
theorem inquiryChecked (d : Desk) (hid : c.id ≠ "") : d.ChecksInquiry c where
  unsaved _ := exists_error_of_subscribersConcerned
  alike_iff := by
    refine ⟨fun hsame => ?_, refusal?_of_not_isOverlooked hid⟩
    rw [← Bool.not_eq_true]
    intro h
    obtain ⟨hsave, hask⟩ := refusals_of_isOverlooked (d := d) hid h
    rw [hsame, hsave] at hask
    revert hask
    decide
  same_error := error_iff_of_not_isOverlooked hid
  overlooked := refusals_of_isOverlooked hid

/-- A list of urgencies with one that is no number. -/
def wrongUrgency : Condition := .ofParts "urgent" "urgency" .isIn "1, high"

theorem inquiryChecked_wrongUrgency :
    wrongUrgency.id ≠ "" ∧ wrongUrgency.isOverlooked = false ∧ wrongUrgency.lacksField = false ∧
    refusal? ((Desk.new (.ofLayout {}) {}).saveCondition wrongUrgency) =
      some "INEXPRESSIBLE_CONDITION" ∧
    refusal? ((Desk.new (.ofLayout {}) {}).subscribersConcerned wrongUrgency) =
      some "INEXPRESSIBLE_CONDITION" := by
  have hid : wrongUrgency.id ≠ "" := by decide
  have hseen : wrongUrgency.isOverlooked = false := by decide +kernel
  have hfield : wrongUrgency.lacksField = false := by decide +kernel
  have hsave : refusal? ((Desk.new (.ofLayout {}) {}).saveCondition wrongUrgency) =
      some "INEXPRESSIBLE_CONDITION" := by decide +kernel
  have hsame := (inquiryChecked (Desk.new (.ofLayout {}) {}) hid).alike_iff.2 hseen
  exact ⟨hid, hseen, hfield, hsave, hsame.trans hsave⟩

/-! ### Conditions that are overlooked -/

/-- A headline that equals nothing. -/
def noHeadline : Condition := .ofParts "untitled" "headline" .eq ""

/-- A text in no field. -/
def noField : Condition := .ofParts "flood" " " .like "flood"

/-- **A desk refuses to save either condition, and answers whom it concerns.** -/
theorem noHeadline_overlooked :
    noHeadline.id ≠ "" ∧
    refusal? ((Desk.new (.ofLayout {}) {}).saveCondition noHeadline) = some "INVALID_CONDITION" ∧
    ((Desk.new (.ofLayout {}) {}).subscribersConcerned noHeadline).toOption = some [] ∧
    noField.id ≠ "" ∧
    refusal? ((Desk.new (.ofLayout {}) {}).saveCondition noField) = some "INVALID_CONDITION" ∧
    ((Desk.new (.ofLayout {}) {}).subscribersConcerned noField).toOption = some [] := by
  decide +kernel

end Desk

end Newswire
