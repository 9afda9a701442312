import Newswire.Proofs.Query.Decision
import Newswire.Proofs.Rule.Comparison

/-!
# What both kinds of queries share

* `decides_unlessSingle_all`, `decides_unlessSingle_any` : a combination of one query may be written
  as that query.
* `Matcher.decides_any_someValue` : a list of tests that some value at a path has to pass is a
  single test of the values.
* `Matcher.someFound_eq` : a written pattern that is read back is looked for in the values.
* `Condition.entriesFor_eq`, `Condition.patternValue_eq` : the checks of a condition's value do not
  change it.
-/

namespace Newswire

section Single

variable {run : Json → Matcher} {write : List Json → Json} {doc : Json} {qs : List Json}
  {ps : List Prop}

theorem exists_mem_single_iff (P : Prop) : (∃ p ∈ [P], p) ↔ P := by
  constructor
  · rintro ⟨p, hp, h⟩
    exact List.mem_singleton.1 hp ▸ h
  · exact fun h => ⟨P, List.mem_singleton_self P, h⟩

theorem forall_mem_pair_iff (P Q : Prop) : (∀ p ∈ [P, Q], p) ↔ P ∧ Q := by
  rw [List.forall_mem_cons, List.forall_mem_singleton]

theorem exists_mem_pair_iff (P Q : Prop) : (∃ p ∈ [P, Q], p) ↔ P ∨ Q := by
  constructor
  · rintro ⟨p, hp, h⟩
    rcases List.mem_pair.1 hp with rfl | rfl
    · exact Or.inl h
    · exact Or.inr h
  · rintro (h | h)
    · exact ⟨P, by simp, h⟩
    · exact ⟨Q, by simp, h⟩

theorem decides_unlessSingle_all (h : List.Forall₂ (fun p q => Decides (run q doc) p) ps qs)
    (hwrite : Decides (run (write qs) doc) (∀ p ∈ ps, p)) :
    Decides (run (unlessSingle write qs) doc) (∀ p ∈ ps, p) := by
  match h with
  | .nil => exact hwrite
  | .cons hq .nil => exact hq.congr (List.forall_mem_singleton (p := fun p => p)).symm
  | .cons _ (.cons _ _) => exact hwrite

theorem decides_unlessSingle_any (h : List.Forall₂ (fun p q => Decides (run q doc) p) ps qs)
    (hwrite : Decides (run (write qs) doc) (∃ p ∈ ps, p)) :
    Decides (run (unlessSingle write qs) doc) (∃ p ∈ ps, p) := by
  match h with
  | .nil => exact hwrite
  | .cons hq .nil => exact hq.congr (exists_mem_single_iff _).symm
  | .cons _ (.cons _ _) => exact hwrite

end Single

namespace Matcher

theorem someFound_eq {pattern : String} {steps : Text.Pattern}
    (h : Text.Pattern.read? pattern.toList = some steps) (path : String) (ignoreCase : Bool) :
    someFound path ignoreCase pattern =
      .someValue path (Json.textIs (steps.found ignoreCase)) := by
  rw [someFound, h]
  rfl

/-- Some value passes one of several tests. -/
theorem decides_any_someValue {α : Type} (path : String) (xs : List α) (p : α → Json → Bool)
    (doc : Json) : Decides (any (xs.map fun x => someValue path (p x)) doc)
      ((doc.valuesAt path).any (fun v => xs.any (p · v)) = true) := by
  have h : List.Forall₂ (fun x m => Decides (m doc) ((doc.valuesAt path).any (p x) = true)) xs
      (xs.map fun x => someValue path (p x)) :=
    List.forall₂_map_right_iff.2 (List.forall₂_same.2 fun x _ => decides_test _)
  refine (decides_any h).congr ?_
  rw [any_comm, List.any_eq_true]

end Matcher

namespace Condition

variable {c : Condition} {kind : ValueKind} {target : QueryKind}

theorem entriesFor_eq {es : List String} (h : c.entriesFor kind target = .ok es) :
    es = c.values := by
  unfold entriesFor at h
  simp only at h
  split at h
  · cases h
  · split at h
    · exact (Except.ok.inj h).symm
    · split at h
      · cases h
      · exact (Except.ok.inj h).symm

theorem ne_nil_of_entriesFor {es : List String} (h : c.entriesFor kind target = .ok es) :
    es ≠ [] := by
  have heq := entriesFor_eq h
  intro hnil
  unfold entriesFor at h
  rw [← heq, hnil] at h
  cases h

theorem patternValue_eq {value : String} (h : c.patternValue = .ok value) : value = c.value := by
  unfold patternValue at h
  split at h
  · cases h
  · exact (Except.ok.inj h).symm

end Condition

theorem any_sameScalar_numbers (value : String) (v : Json) :
    ((listEntries value).filterMap fun e => (numberOf? e).map Json.num).any v.sameScalar =
      inList .number value v := by
  rw [← List.map_filterMap, List.any_map]
  rfl

/-! ### What queries compare -/

namespace FieldLayout

/-- The objects in the arrays at the path of the tags. -/
def tagsOf (layout : FieldLayout) (doc : Json) : List Json :=
  (doc.rawValuesAt layout.tagArray).flatMap Matcher.elements

/-- Some value under the scheme key of a tag is the name of the vocabulary. -/
def isTagged (layout : FieldLayout) (scheme : String) (tag : Json) : Bool :=
  (tag.valuesAt layout.schemeKey).any (·.sameScalar (.str scheme))

/-- Some tag of the vocabulary has a code that passes a test. -/
def SomeCode (layout : FieldLayout) (scheme : String) (p : Json → Bool) (doc : Json) : Prop :=
  ∃ tag ∈ layout.tagsOf doc, layout.isTagged scheme tag = true ∧
    (tag.valuesAt layout.codeKey).any p = true

end FieldLayout

/-- The values that queries look at for a kind of field. -/
def FieldKind.queried (kind : FieldKind) (layout : FieldLayout) (doc : Json) : List Json :=
  match kind with
  | plain path _ => doc.valuesAt path
  | freeText key => doc.valuesAt (layout.customPath key)
  | vocabulary scheme =>
    ((layout.tagsOf doc).filter (layout.isTagged scheme)).flatMap (Json.valuesAt layout.codeKey)

/-- A condition holds of the values that queries look at. -/
def Condition.found (schema : Schema) (c : Condition) (doc : Json) : Bool :=
  let kind := schema.resolve c.field
  c.operator.accepts kind.values c.value (kind.queried schema.layout doc)

variable {layout : FieldLayout} {scheme : String} {doc : Json}

theorem FieldKind.any_queried_vocabulary (p : Json → Bool) :
    ((vocabulary scheme).queried layout doc).any p = true ↔ layout.SomeCode scheme p doc := by
  simp [queried, FieldLayout.SomeCode]

theorem Operator.accepts_codes {op : Operator} (hop : op ≠ .notIn) (value : String) :
    op.accepts .text value ((FieldKind.vocabulary scheme).queried layout doc) = true ↔
      layout.SomeCode scheme (op.admits .text value) doc := by
  rw [accepts_eq_any hop, FieldKind.any_queried_vocabulary]

/-- `notIn` wants a scalar code, and none that it admits. -/
theorem Operator.notIn_accepts_codes (value : String) :
    notIn.accepts .text value ((FieldKind.vocabulary scheme).queried layout doc) = true ↔
      layout.SomeCode scheme Json.isScalar doc ∧
        ¬layout.SomeCode scheme (notIn.admits .text value) doc := by
  rw [accepts_notIn, Bool.and_eq_true, Bool.not_eq_true', ← Bool.not_eq_true,
    FieldKind.any_queried_vocabulary, FieldKind.any_queried_vocabulary]

end Newswire
