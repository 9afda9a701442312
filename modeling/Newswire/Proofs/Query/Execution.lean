import Newswire.Proofs.Desk.Integrity
import Newswire.Proofs.Query.Documents

/-!
# Queries that can be run

A rule that a desk accepts has a query of either kind.  The matchers refuse queries of other shapes
than the compilers write, but the name of a field is free text, and in a store query it becomes a
key beside the keys of the combinations.

* `StoreQuery.runs_condition_iff` : the store query of a condition can be run, on any document,
  iff the condition does not read a path that begins like an operator.
* `Desk.Executable` : the queries of a rule can be run on every document.
* `Desk.executable_after` : **every saved rule is executable after any requests at a new desk**, its
  store query as far as its conditions read no such path.
* `Desk.operator_field_fails` : one saved condition on such a path makes the store query of a saved
  rule fail.
-/

namespace Newswire

open Rulebook

namespace StoreQuery

variable {path : String} {kind : ValueKind} {c : Condition} {layout : FieldLayout}
  {field : FieldKind}

/-! ### Paths that begin like an operator -/

/-- The query is at fault for every document, wherever the decision begins. -/
def Fails (q : Json) : Prop :=
  ∃ fault, ∀ doc, matcher q doc = .error (.unsupportedQuery fault)

/-- A key that begins like an operator is no path, and as an operator it combines lists. -/
theorem clauses_operatorKey (hpath : ¬IsPath path) {operand : Json}
    (hoperand : ∀ qs, operand ≠ .arr qs) : ∃ fault, clauses [(path, operand)] = [.fail fault] := by
  have hstart : path.startsWith "$" = true := (Bool.not_eq_false _).mp hpath
  unfold clauses
  simp only [hstart, if_true, clauses_nil]
  split
  · exact absurd rfl (hoperand _)
  · exact absurd rfl (hoperand _)
  · exact absurd rfl (hoperand _)
  · exact ⟨_, rfl⟩
  · exact ⟨_, rfl⟩
  · exact ⟨_, rfl⟩
  · exact ⟨_, rfl⟩

theorem fails_field (hpath : ¬IsPath path) {operand : Json} (hoperand : ∀ qs, operand ≠ .arr qs) :
    Fails (StoreQuery.field path operand) := by
  obtain ⟨fault, hfault⟩ := clauses_operatorKey hpath hoperand
  refine ⟨fault, fun doc => ?_⟩
  rw [StoreQuery.field, matcher_obj, hfault]
  rfl

theorem Fails.all {q : Json} (h : Fails q) (qs : List Json) : Fails (all (q :: qs)) := by
  obtain ⟨fault, hfault⟩ := h
  refine ⟨fault, fun doc => ?_⟩
  rw [StoreQuery.all, matcher_obj, (clauses_combination _).1, matchers_eq, List.map_cons,
    Matcher.all_singleton, Matcher.all, hfault]
  rfl

theorem operand_ne_arr {o : Json} (h : operand kind c = .ok o) (qs : List Json) : o ≠ .arr qs := by
  rintro rfl
  unfold operand at h
  cases hop : c.operator with
  | like | startsWith | endsWith =>
    rw [hop] at h
    obtain ⟨value, -, ho⟩ := bind_eq_ok_iff.1 h
    cases ho
  | eq =>
    rw [hop] at h
    have ho := Except.ok.inj h
    split at ho <;> cases ho
  | isIn | notIn =>
    rw [hop] at h
    obtain ⟨es, -, ho⟩ := map_eq_ok_iff.1 h
    cases ho

theorem fails_onPath (hpath : ¬IsPath path) {q : Json} (h : onPath path kind c = .ok q) :
    Fails q := by
  unfold onPath at h
  split at h
  · obtain ⟨es, -, hq⟩ := bind_eq_ok_iff.1 h
    obtain rfl := Except.ok.inj hq
    exact (fails_field hpath fun qs hqs => by cases hqs).all _
  · obtain ⟨o, ho, rfl⟩ := map_eq_ok_iff.1 h
    exact fails_field hpath (operand_ne_arr ho)

/-- **The store query of a condition can be run iff the condition reads no path that begins like an
operator**; if it does, there is no document on which the query is without a fault. -/
theorem runs_condition_iff (hlayout : Suits layout) {q : Json}
    (h : condition layout field c = .ok q) (doc : Json) : (∃ v, matcher q doc = .ok v) ↔
      ∀ path values, field.path? layout = some (path, values) → IsPath path := by
  constructor
  · rintro ⟨v, hv⟩ path values hfield
    by_contra hpath
    have hfails : Fails q := by
      cases field with
      | vocabulary scheme => cases hfield
      | plain p k =>
        obtain ⟨rfl, rfl⟩ := Prod.mk.inj (Option.some.inj hfield)
        exact fails_onPath hpath h
      | freeText key =>
        obtain ⟨rfl, rfl⟩ := Prod.mk.inj (Option.some.inj hfield)
        exact fails_onPath hpath h
    obtain ⟨fault, hfault⟩ := hfails
    cases hv.symm.trans (hfault doc)
  · intro hpaths
    have hdecides : Decides (matcher q doc) _ := decides_condition hlayout hpaths h
    exact hdecides.imp fun v hv => hv.1

end StoreQuery

namespace Desk

/-! ### Saved rules -/

/-- The queries of a rule can be run on every document; the store query, if the conditions of the
rule read no path that begins like an operator. -/
structure Executable (d : Desk) (r : Rule) : Prop where
  /-- The rule has a search query without faults. -/
  search : ∃ q, d.searchQuery (some r) = .ok q ∧ ∀ doc, ∃ v, SearchQuery.matcher q doc = .ok v
  /-- The rule has a store query, whose only faults are such paths. -/
  store : ∃ q, d.storeQuery (some r) = .ok q ∧
    (d.ReadsPaths (some r) → ∀ doc, ∃ v, StoreQuery.matcher q doc = .ok v)
  /-- Each condition of the rule has a store query, which fails on every document if it reads such
  a path. -/
  conditions : ∀ c, d.book.Demands r c →
    ∃ q, StoreQuery.condition d.schema.layout (d.schema.resolve c.field) c = .ok q ∧
      ∀ doc, (∃ v, StoreQuery.matcher q doc = .ok v) ↔ ∀ path values,
        (d.schema.resolve c.field).path? d.schema.layout = some (path, values) →
          StoreQuery.IsPath path

variable {d : Desk} {r : Rule} {id : String}

/-- Nothing that is saved gets past the checks without being executable. -/
theorem executable_of_expressible (hstore : StoreQuery.Suits d.schema.layout)
    (hsearch : SearchQuery.Suits d.schema.layout) (hb : d.book.WellFormed) (he : d.Expressible)
    (hr : d.book.rules.get? id = some r) : d.Executable r where
  search := by
    obtain ⟨q, hq⟩ := (he.usable hb hr).search
    refine ⟨q, hq, fun doc => ?_⟩
    have hdecides : Decides (SearchQuery.matcher q doc) _ := decides_searchQuery_finds hsearch hq
    exact hdecides.imp fun v hv => hv.1
  store := by
    obtain ⟨q, hq⟩ := (he.usable hb hr).store
    refine ⟨q, hq, fun hpaths doc => ?_⟩
    have hdecides : Decides (StoreQuery.matcher q doc) _ :=
      decides_storeQuery_finds hstore hpaths hq
    exact hdecides.imp fun v hv => hv.1
  conditions c hc := by
    obtain ⟨k, hk⟩ := hc.exists_saved
    obtain ⟨q, hq⟩ := (checkExpressible_eq_ok_iff.1 (he k c hk)).1
    exact ⟨q, hq, StoreQuery.runs_condition_iff hstore hq⟩

/-- **Every saved rule can be run as a query of either kind after any requests at a new desk.**  Only
a path that begins like an operator stands in the way of its store query, and it does so in the
query of its condition on every document. -/
theorem executable_after {schema : Schema} (hstore : StoreQuery.Suits schema.layout)
    (hsearch : SearchQuery.Suits schema.layout) (cache : CacheSettings) {requests : List Request}
    (hdesk : ∀ q ∈ requests, q.AtDesk)
    (hr : ((Desk.new schema cache).after requests).book.rules.get? id = some r) :
    ((Desk.new schema cache).after requests).Executable r := by
  obtain ⟨⟨horderly, hexpressible⟩, hschema⟩ :
      (((Desk.new schema cache).after requests).Orderly ∧
        ((Desk.new schema cache).after requests).Expressible) ∧
      ((Desk.new schema cache).after requests).schema = schema := by
    refine @after_induction (fun d => (d.Orderly ∧ d.Expressible) ∧ d.schema = schema) _
      (fun q hq d hd => ?_) _ ⟨⟨orderly_new schema cache, fun _ _ hc => nomatch hc⟩, rfl⟩
    obtain ⟨⟨ho, he⟩, hs⟩ := hd
    exact ⟨⟨ho.perform q, he.perform ho.1 (hdesk q hq)⟩, (ho.schema_perform q).trans hs⟩
  refine executable_of_expressible ?_ ?_ horderly.1.toWellFormed hexpressible hr
  · rw [hschema]
    exact hstore
  · rw [hschema]
    exact hsearch

/-- A rule with one condition, on a path that begins like an operator, and one with another. -/
def quotedRun : List Request :=
  [.change (.saveCondition (.ofParts "price" "$price" .eq "12")),
    .change (.saveCondition (.ofParts "flood" "headline" .like "flood")),
    .change (.saveRule default (.new default "market" "market" [⟨.ofList ["price"], ∅⟩])),
    .change (.saveRule default (.new default "wire" "wire" [⟨.ofList ["flood"], ∅⟩]))]

theorem executable_after_quotedRun : StoreQuery.Suits (Schema.ofLayout {}).layout ∧
    SearchQuery.Suits (Schema.ofLayout {}).layout ∧ (∀ q ∈ quotedRun, q.AtDesk) ∧
    ∀ id ∈ ["market", "wire"], ∃ r,
      ((Desk.new (.ofLayout {}) {}).after quotedRun).book.rules.get? id = some r ∧
        ((Desk.new (.ofLayout {}) {}).after quotedRun).Executable r := by
  have hdesk : ∀ q ∈ quotedRun, q.AtDesk := by simp [quotedRun, Request.AtDesk]
  refine ⟨plain_default.store, plain_default.search, hdesk, fun id hid => ?_⟩
  have hsaved : ["market", "wire"].all (fun id =>
      (((Desk.new (.ofLayout {}) {}).after quotedRun).book.rules.get? id).isSome) = true := by
    decide +kernel
  obtain ⟨r, hr⟩ := Option.isSome_iff_exists.1 (List.all_eq_true.1 hsaved id hid)
  exact ⟨r, hr, executable_after plain_default.store plain_default.search {} hdesk hr⟩

/-- The code of the fault that the store query of a rule has on a document. -/
def storeFault? (d : Desk) (r : Rule) (doc : Json) : Option String := do
  let q ← (d.storeQuery (some r)).toOption
  match StoreQuery.matcher q doc with
  | .ok _ => none
  | .error e => some e.code

/-- A document with a value under the key. -/
def quotedDocument : Json := .obj [("$price", .ofInt 12)]

/-- **A rule that was accepted has a store query that cannot be run**, as the name of its field
begins like an operator. -/
theorem operator_field_fails : (∀ q ∈ quotedRun, q.AtDesk) ∧ ∃ r,
    ((Desk.new (.ofLayout {}) {}).after quotedRun).book.rules.get? "market" = some r ∧
      ((Desk.new (.ofLayout {}) {}).after quotedRun).storeFault? r quotedDocument =
        some "UNSUPPORTED_QUERY" := by
  have hfault : ((((Desk.new (.ofLayout {}) {}).after quotedRun).book.rules.get? "market").bind
      fun r => ((Desk.new (.ofLayout {}) {}).after quotedRun).storeFault? r quotedDocument) =
        some "UNSUPPORTED_QUERY" := by
    decide +kernel
  exact ⟨by simp [quotedRun, Request.AtDesk], Option.bind_eq_some_iff.1 hfault⟩

end Desk

end Newswire
