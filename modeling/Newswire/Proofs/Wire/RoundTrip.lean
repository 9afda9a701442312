import Newswire.Proofs.Wire.Reading
import Newswire.Wire.Distribution
import Newswire.Wire.Rules

/-!
# What is written is read again

Conditions, rules, products, subscribers, routes and vocabularies are written as documents, and read
from them more generously than they are written: identifiers may be numbers, operators may be in
capitals, sets may repeat their members, members may be missing, and an array may stand for an object.

* `Condition.ofJson_toJson` and the like : what is written for a value is read as this value.
* `RoundTrips` : besides, whatever document is read as the value, the one that is written for it can
  stand for that document.
* `documents_roundTrip` : **this holds of all six kinds of documents.**  Of the times of a rule it is
  taken that they are read as they are written (`Timestamp.Survives`).
-/

namespace Newswire

open Record

/-! ### Identifiers and words -/

theorem IdSet.ofList_toList (s : IdSet) : IdSet.ofList s.toList = s :=
  IdSet.ext fun _ => by rw [IdSet.mem_ofList, IdSet.mem_toList]

theorem IdSet.toList_of_isEmpty {s : IdSet} (h : s.isEmpty = true) : s = ∅ :=
  IdSet.ext fun id => iff_of_false (IdSet.isEmpty_iff.1 h id) (IdSet.not_mem_empty id)

theorem Decoder.ofJson_identifierSet (s : IdSet) :
    Decoder.identifierSet.ofJson (.strings s.toList) = .ok s := by
  show IdSet.ofList <$> Decoder.identifiers.ofJson (.strings s.toList) = _
  rw [Decoder.ofJson_identifiers]
  exact congrArg Except.ok s.ofList_toList

theorem Decoder.ofJson_operator (op : Operator) :
    Decoder.operator.ofJson (.str op.name) = .ok op := by
  simp only [Decoder.ofJson, Decoder.operator, Draft.ofJson, Decoder.text, bind, Except.bind,
    Operator.ofName?_name]
  rfl

theorem Admission.ofName?_name (a : Admission) : ofName? a.name = some a := by
  cases a <;> decide

theorem Admission.ofJson_name (a : Admission) : Admission.decoder.ofJson (.str a.name) = .ok a := by
  show Admission.named a.name = _
  rw [named, ofName?_name]

/-! ### Conditions and rules -/

theorem Condition.ofJson_toJson (c : Condition) : Condition.decoder.ofJson c.toJson = .ok c := by
  refine Gives.ofJson_obj (r := Condition.record) ?_ (by simp)
  exact ((((gives_required rfl (Decoder.ofJson_identifier c.id)).map Condition.mk).seq
    (gives_withDefault rfl (Decoder.ofJson_text c.name))).seq
    (gives_required rfl (Decoder.ofJson_text c.field))).seq
    (gives_required rfl (Decoder.ofJson_operator c.operator)) |>.seq
    (gives_required rfl (Decoder.ofJson_text c.value))

/-- A set that is left out because it is empty is taken to be empty. -/
theorem Clause.gives_set {members : List (String × Json)} {name : String} {s : IdSet}
    (h : members.lookup name = if s.isEmpty then none else some (.strings s.toList)) :
    (Record.withDefault name ∅ Decoder.identifierSet).Gives members s := by
  by_cases hs : s.isEmpty = true
  · rw [if_pos hs] at h
    rw [IdSet.toList_of_isEmpty hs]
    exact gives_absent h
  · rw [if_neg hs] at h
    exact gives_withDefault h (Decoder.ofJson_identifierSet s)

theorem Clause.ofJson_toJson (c : Clause) : Clause.decoder.ofJson c.toJson = .ok c := by
  refine Gives.ofJson_obj (((Clause.gives_set ?_).map Clause.mk).seq (Clause.gives_set ?_)) ?_
  all_goals
    simp only [setMember]
    cases c.conditions.isEmpty <;> cases c.parents.isEmpty <;> simp [List.lookup_cons]

theorem Clause.ofJson_entry (c : Clause) : Clause.entryDecoder.ofJson c.entry = .ok c :=
  (gives_required rfl c.ofJson_toJson).ofJson_obj (by simp)

/-- The point in time is read from its own text. -/
def Timestamp.Survives (t : Timestamp) : Prop := Timestamp.read? t.text = some t

instance (t : Timestamp) : Decidable t.Survives :=
  inferInstanceAs (Decidable (Timestamp.read? t.text = some t))

/-- The times of the rule are read as they are written. -/
structure Rule.Timely (r : Rule) : Prop where
  /-- The time of its first version. -/
  createdAt : r.createdAt.Survives
  /-- The time of this version. -/
  updatedAt : r.updatedAt.Survives

theorem Rule.ofJson_toJson (now : Timestamp) {r : Rule} (h : r.Timely) :
    (Rule.decoder now).ofJson r.toJson = .ok r := by
  have hrevision : Decoder.ofJson (fun room d => UInt64.ofNat <$> Decoder.count room d)
      (.ofNat r.revision.toNat) = .ok r.revision := by
    show UInt64.ofNat <$> Decoder.count.ofJson (.ofNat r.revision.toNat) = _
    rw [Decoder.ofJson_count, Except.map_ok, UInt64.ofNat_toNat]
  refine Gives.ofJson_obj (r := Rule.record now) ?_ (by simp)
  exact (((((gives_required rfl (Decoder.ofJson_identifier r.id)).map Rule.mk).seq
    (gives_required rfl (Decoder.ofJson_text r.name))).seq
    (gives_required rfl (Decoder.ofJson_list fun c _ => c.ofJson_entry))).seq
    (gives_withDefault rfl hrevision)).seq
    (gives_withDefault rfl (Decoder.ofJson_timestamp h.createdAt)) |>.seq
    (gives_withDefault rfl (Decoder.ofJson_timestamp h.updatedAt))

/-! ### Products, subscribers and routes -/

theorem ProductRule.ofJson_toJson (p : ProductRule) :
    ProductRule.decoder.ofJson p.toJson = .ok p :=
  (((gives_required rfl (Decoder.ofJson_identifier p.ruleId)).map ProductRule.mk).seq
    (gives_required rfl (Admission.ofJson_name p.admission))).ofJson_obj (by simp)

theorem Product.ofJson_toJson (p : Product) : Product.decoder.ofJson p.toJson = .ok p := by
  have hrule : (Decoder.optional ProductRule.decoder).ofJson
      ((p.rule.map ProductRule.toJson).getD .null) = .ok p.rule := by
    cases p.rule with
    | none => exact Decoder.ofJson_optional_null
    | some use => exact Decoder.ofJson_optional nofun use.ofJson_toJson
  refine Gives.ofJson_obj ?_ (by simp)
  exact (((gives_required rfl (Decoder.ofJson_identifier p.id)).map Product.mk).seq
    (gives_withDefault rfl (Decoder.ofJson_text p.name))).seq (gives_withDefault rfl hrule)

theorem Subscriber.ofJson_toJson (s : Subscriber) :
    Subscriber.decoder.ofJson s.toJson = .ok s := by
  refine Gives.ofJson_obj ?_ (by simp)
  exact (((gives_required rfl (Decoder.ofJson_identifier s.id)).map Subscriber.mk).seq
    (gives_withDefault rfl (Decoder.ofJson_text s.name))).seq
    (gives_withDefault rfl (Decoder.ofJson_identifiers s.products)) |>.seq
    (gives_withDefault rfl (Decoder.ofJson_flag s.isActive))

theorem Route.ofJson_toJson (r : Route) : Route.decoder.ofJson r.toJson = .ok r := by
  refine Gives.ofJson_obj ?_ (by simp)
  exact (((gives_required rfl (Decoder.ofJson_identifier r.id)).map Route.mk).seq
    (gives_withDefault rfl (Decoder.ofJson_text r.name))).seq
    (gives_withDefault rfl (Decoder.ofJson_optionalIdentifier r.ruleId))

/-! ### Vocabularies -/

theorem Term.ofJson_toJson (t : Term) : Term.decoder.ofJson t.toJson = .ok t := by
  refine Gives.ofJson_obj ?_ (by simp)
  exact (((gives_required rfl (Decoder.ofJson_text t.name)).map Term.mk).seq
    (gives_required rfl (Decoder.ofJson_text t.qcode))).seq
    (gives_withDefault rfl (Decoder.ofJson_flag t.isActive))

theorem Vocabulary.ofJson_toJson (v : Vocabulary) :
    Vocabulary.decoder.ofJson v.toJson = .ok v := by
  have htype : (Decoder.optional Decoder.text).ofJson (.ofText? v.fieldType) = .ok v.fieldType := by
    cases v.fieldType with
    | none => exact Decoder.ofJson_optional_null
    | some s => exact Decoder.ofJson_optional nofun (Decoder.ofJson_text s)
  refine Gives.ofJson_obj ?_ (by simp)
  exact (((gives_required rfl (Decoder.ofJson_text v.id)).map Vocabulary.mk).seq
    (gives_withDefault rfl (Decoder.ofJson_text v.displayName))).seq
    (gives_withDefault rfl htype) |>.seq
    (gives_withDefault rfl (Decoder.ofJson_list fun t _ => t.ofJson_toJson))

/-! ### All documents -/

/-- What is written for a fitting value is read as the value, and it can stand for every document that
is read as the value, also at a later time. -/
structure RoundTrips {α : Type} (write : α → Json) (read : Timestamp → Decoder α)
    (fit : α → Prop) : Prop where
  /-- The value is read again. -/
  reads_back : ∀ now x, fit x → (read now).ofJson (write x) = .ok x
  /-- A document that is read can be replaced. -/
  replaces : ∀ now later j x, (read now).ofJson j = .ok x → fit x →
    (read later).ofJson (write x) = .ok x

theorem RoundTrips.of_reads_back {α : Type} {write : α → Json} {read : Timestamp → Decoder α}
    {fit : α → Prop} (h : ∀ now x, fit x → (read now).ofJson (write x) = .ok x) :
    RoundTrips write read fit :=
  ⟨h, fun _ later _ x _ hx => h later x hx⟩

/-- **Every kind of value is read from the document that is written for it**, and this document can
stand for every other one that the value is read from. -/
theorem documents_roundTrip :
    RoundTrips Condition.toJson (fun _ => Condition.decoder) (fun _ => True) ∧
      RoundTrips Rule.toJson Rule.decoder Rule.Timely ∧
      RoundTrips Product.toJson (fun _ => Product.decoder) (fun _ => True) ∧
      RoundTrips Subscriber.toJson (fun _ => Subscriber.decoder) (fun _ => True) ∧
      RoundTrips Route.toJson (fun _ => Route.decoder) (fun _ => True) ∧
      RoundTrips Vocabulary.toJson (fun _ => Vocabulary.decoder) (fun _ => True) :=
  ⟨.of_reads_back fun _ c _ => c.ofJson_toJson, .of_reads_back fun now _ h => Rule.ofJson_toJson now h,
    .of_reads_back fun _ p _ => p.ofJson_toJson, .of_reads_back fun _ s _ => s.ofJson_toJson,
    .of_reads_back fun _ r _ => r.ofJson_toJson, .of_reads_back fun _ v _ => v.ofJson_toJson⟩

/-- A rule as an array, with a number as identifier, a repeated condition and a time with an offset. -/
def looseDocument : Json :=
  .arr [.num (.int 7), .str "wire",
    .arr [.obj [("expression", .obj [("fc", .arr [.str "flood", .num (.int 3), .str "flood"])])]],
    .num (.int 2), .str "2019-05-01 12:00:00.5+02:00"]

theorem documents_roundTrip_looseDocument : ∃ r, (Rule.decoder default).ofJson looseDocument = .ok r ∧
    r.Timely ∧ (Rule.decoder default).ofJson r.toJson = .ok r := by
  obtain ⟨r, hr, htimes⟩ := Option.map_eq_some_iff.1
    (show ((Rule.decoder default).ofJson looseDocument).toOption.map
      (fun r => (decide r.createdAt.Survives, decide r.updatedAt.Survives)) = some (true, true) by
        decide +kernel)
  obtain ⟨hcreated, hupdated⟩ := Prod.mk.inj htimes
  have htimely : r.Timely := ⟨of_decide_eq_true hcreated, of_decide_eq_true hupdated⟩
  have hread := eq_ok_of_toOption hr
  exact ⟨r, hread, htimely, documents_roundTrip.2.1.replaces default default looseDocument r hread
    htimely⟩

end Newswire
