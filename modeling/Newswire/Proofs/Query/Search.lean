import Newswire.Proofs.Json.Path
import Newswire.Proofs.Query.Target
import Newswire.Proofs.Rulebook.Walk
import Newswire.Proofs.Text.Wildcard
import Newswire.Query.Search
import Newswire.Query.Search.Matching

/-!
# What search queries mean

The matcher of a search query is taken apart along the shapes that conditions are compiled to, and
each shape is shown to decide what it stands for, on every document.  The result is the same as for
store queries, although a tag is not looked at by itself but in a document of its own.

* `SearchQuery.faithful` : conjunctions and disjunctions mean what they say.
* `SearchQuery.read?_wildcardPattern` : what is written for a wildcard pattern is read back as its
  steps.
* `SearchQuery.found_globOf_open`, `SearchQuery.found_globOf_openStart` : the wildcard patterns of
  `like` and `endsWith` are found in the texts in which their values are found.
* `SearchQuery.decides_condition` : **the query of any condition** decides the comparison of the
  values that it looks at, on a layout whose tags have keys (`SearchQuery.Suits`).
-/

namespace Newswire

namespace SearchQuery

variable {doc : Json} {path : String} {kind : ValueKind} {c : Condition}

/-! ### Combinations -/

theorem matchers_eq (qs : List Json) : matchers qs = qs.map matcher := by
  induction qs with
  | nil => rw [matchers]; rfl
  | cons q qs ih => rw [matchers, ih]; rfl

theorem decides_matchers {qs : List Json} {ps : List Prop}
    (h : List.Forall₂ (fun p q => Decides (matcher q doc) p) ps qs) :
    List.Forall₂ (fun p m => Decides (m doc) p) ps (matchers qs) := by
  rw [matchers_eq]
  exact List.forall₂_map_right_iff.2 h

theorem matcher_bool (members : List (String × Json)) :
    matcher (.obj [("bool", .obj members)]) = combined members (sections members) := by
  rfl

/-- The four parts of a combination: what is required, twice, what is excluded and what is
optional. -/
theorem decides_parts {must filter excluded optional : Matcher} {A B C D : Prop}
    (hA : Decides (must doc) A) (hB : Decides (filter doc) B) (hC : Decides (excluded doc) C)
    (hD : Decides (optional doc) D) :
    Decides (Matcher.all [must, filter, .not excluded, optional] doc) (A ∧ B ∧ ¬C ∧ D) := by
  have hend : Decides (Matcher.all [] doc) True := ⟨true, rfl, by simp⟩
  exact (hA.and (hB.and ((Matcher.decides_not hC).and (hD.and hend)))).congr (by simp)

theorem decides_nothing : Decides (Matcher.all [] doc) True := ⟨true, rfl, by simp⟩

theorem decides_never : Decides (Matcher.any [] doc) False := ⟨false, rfl, by simp⟩

theorem decides_always : Decides (Matcher.test (fun _ => true) doc) True := ⟨true, rfl, by simp⟩

theorem decides_all {qs : List Json} {ps : List Prop}
    (h : List.Forall₂ (fun p q => Decides (matcher q doc) p) ps qs) :
    Decides (matcher (all qs) doc) (∀ p ∈ ps, p) := by
  have hparts : matcher (all qs) = .all [.all (matchers qs), .all [], .not (.any []),
      .test fun _ => true] := by
    rw [all, matcher_bool]
    simp [sections, combined, List.lookup_cons]
  rw [hparts]
  exact (decides_parts (Matcher.decides_all (decides_matchers h)) decides_nothing decides_never
    decides_always).congr (by simp)

theorem decides_any {qs : List Json} {ps : List Prop} (hne : ps ≠ [])
    (h : List.Forall₂ (fun p q => Decides (matcher q doc) p) ps qs) :
    Decides (matcher (any qs) doc) (∃ p ∈ ps, p) := by
  -- without optional parts a combination would be satisfied by everything
  have hqs : (matchers qs).isEmpty = false := by
    cases h with
    | nil => exact absurd rfl hne
    | cons => rw [matchers]; rfl
  have hparts : matcher (any qs) = .all [.all [], .all [], .not (.any []),
      .any (matchers qs)] := by
    rw [any, matcher_bool]
    simp [sections, combined, List.lookup_cons, Json.nat?, Json.ofInt, Matcher.any, hqs]
  rw [hparts]
  exact (decides_parts decides_nothing decides_nothing decides_never
    (Matcher.decides_any (decides_matchers h))).congr (by simp)

theorem decides_either {q q' : Json} {P Q : Prop} (hq : Decides (matcher q doc) P)
    (hq' : Decides (matcher q' doc) Q) : Decides (matcher (any [q, q']) doc) (P ∨ Q) :=
  (decides_any (List.cons_ne_nil _ _) (.cons hq (.cons hq' .nil))).congr (exists_mem_pair_iff P Q)

theorem decides_butNot {q q' : Json} {P Q : Prop} (hq : Decides (matcher q doc) P)
    (hq' : Decides (matcher q' doc) Q) : Decides (matcher (butNot q q') doc) (P ∧ ¬Q) := by
  have hparts : matcher (butNot q q') = .all [.all [matcher q], .all [], .not (.any [matcher q']),
      .test fun _ => true] := by
    rw [butNot, matcher_bool]
    simp [sections, combined, List.lookup_cons, matchers]
  have hmust : Decides (Matcher.all [matcher q] doc) P := by
    rw [Matcher.all_singleton]
    exact hq
  have hnot : Decides (Matcher.any [matcher q'] doc) Q :=
    (hq'.or decides_never).congr (by simp)
  rw [hparts]
  exact (decides_parts hmust decides_nothing hnot decides_always).congr (by simp)

theorem faithful (doc : Json) : Rulebook.Faithful target matcher doc where
  everything := by
    have heverything : matcher target.everything = .test fun _ => true := by rfl
    rw [heverything]
    exact decides_always
  all h := decides_unlessSingle_all h (decides_all h)
  any hne h := decides_unlessSingle_any h (decides_any hne h)

/-! ### The values at a path -/

theorem matcher_term (path : String) (v : Json) :
    matcher (term path v) = .someValue path (·.sameScalar v) := by
  cases v <;> rfl

theorem operandOf_caseless (path value : String) :
    operandOf (.obj [(path, .obj [("case_insensitive", .bool true), ("value", .str value)])]) =
      .ok ⟨path, .str value, true⟩ := by
  rfl

theorem termMatcher_eq {body : Json} {value : String}
    (h : operandOf body = .ok ⟨path, .str value, true⟩) :
    termMatcher body = .someValue path (Json.textIs (caselessEqual value)) := by
  rw [termMatcher, h, caselessEqual_eq]
  simp only [bind, Except.bind, pure, Except.pure, ofParts]
  exact Matcher.someFound_eq (read?_exactPattern value) path true

/-- A text that is written as a pattern is looked for as the pattern that is read back. -/
theorem textMatcher_eq {kind : String} {write : String → String} {body : Json} {value : String}
    {ignoreCase : Bool} {steps : Text.Pattern}
    (h : operandOf body = .ok ⟨path, .str value, ignoreCase⟩)
    (hread : Text.Pattern.read? (write value).toList = some steps) :
    textMatcher kind write body = .someValue path (Json.textIs (steps.found ignoreCase)) := by
  rw [textMatcher, h]
  simp only [bind, Except.bind, pure, Except.pure, ofParts]
  exact Matcher.someFound_eq hread path ignoreCase

theorem matcher_sameText (path value : String) :
    matcher (sameText path value) = .someValue path (Json.textIs (caselessEqual value)) :=
  termMatcher_eq (operandOf_caseless path value)

theorem matcher_terms (path : String) (values : List Json) :
    matcher (terms path values) = .someValue path fun v => values.any v.sameScalar := by
  rfl

theorem matcher_present (path : String) :
    matcher (present path) = .someValue path Json.isScalar := by
  rfl

theorem read?_wildcardPattern (pattern : String) :
    Text.Pattern.read? (wildcardPattern pattern).toList =
      some (Text.Glob.read pattern.toList).anchored := by
  rw [wildcardPattern, String.toList_ofList, Text.Glob.read?_toPattern]

theorem matcher_wildcard (path pattern : String) :
    matcher (wildcard path pattern) =
      .someValue path (Json.textIs ((Text.Glob.read pattern.toList).anchored.found true)) :=
  textMatcher_eq (operandOf_caseless path pattern) (read?_wildcardPattern pattern)

theorem matcher_beginsWith (path value : String) :
    matcher (beginsWith path value) =
      .someValue path (Json.textIs ((Operator.startsWith.steps value).found true)) := by
  have hstart : Operator.startsWith.isPattern = true := rfl
  obtain ⟨pattern, hpattern, hread⟩ := Operator.read?_pattern hstart value
  obtain rfl : startPattern value = pattern := Option.some.inj hpattern
  exact textMatcher_eq (operandOf_caseless path value) hread

/-- The wildcard pattern of `like` is found in the texts in which the value is found. -/
theorem found_globOf_open (value : String) :
    (Text.Glob.read (globOf value true).toList).anchored.found true =
      (Operator.like.steps value).found true := by
  funext text
  have hread : Text.Glob.read (globOf value true).toList =
      .many :: (value.toList.map .char ++ [.many]) := by
    simp [globOf, Text.Glob.read_escape_append, Text.Glob.read]
  rw [hread, Text.Glob.found_anchored, Text.Pattern.found_eq_foundFrom]
  exact Text.Glob.follows_open_eq_found _ _ _

/-- The wildcard pattern of `endsWith` is found in the texts at whose end the value is found. -/
theorem found_globOf_openStart (value : String) :
    (Text.Glob.read (globOf value false).toList).anchored.found true =
      (Operator.endsWith.steps value).found true := by
  funext text
  have hread : Text.Glob.read (globOf value false).toList = .many :: value.toList.map .char := by
    simp [globOf, Text.Glob.read_escape, Text.Glob.read]
  rw [hread, Text.Glob.found_anchored, Text.Pattern.found_eq_foundFrom]
  exact Text.Glob.follows_openStart_eq_found _ _ _

/-! ### Conditions on the values at a path -/

theorem decides_someValue (path : String) {q : Json} {p p' : Json → Bool}
    (h : matcher q = .someValue path p) (hp : p = p') :
    Decides (matcher q doc) ((doc.valuesAt path).any p' = true) := by
  rw [h, hp]
  exact Matcher.decides_test _

theorem decides_texts {es : List String} (hne : es ≠ []) :
    Decides (matcher (any (es.map (sameText path))) doc)
      ((doc.valuesAt path).any (fun v => es.any fun e => v.textIs (caselessEqual e)) = true) := by
  have hentries : List.Forall₂ (fun p q => Decides (matcher q doc) p)
      (es.map fun e => (doc.valuesAt path).any (Json.textIs (caselessEqual e)) = true)
      (es.map (sameText path)) :=
    List.forall₂_map_left_iff.2 (List.forall₂_map_right_iff.2 (List.forall₂_same.2 fun e _ =>
      decides_someValue path (matcher_sameText path e) rfl))
  have hnonempty : (es.map fun e =>
      (doc.valuesAt path).any (Json.textIs (caselessEqual e)) = true) ≠ [] :=
    fun hnil => hne (List.map_eq_nil_iff.1 hnil)
  refine (decides_any hnonempty hentries).congr ?_
  rw [any_comm, List.any_eq_true]
  simp only [List.mem_map, exists_exists_and_eq_and]

/-- What a list condition is written as tests the values as the list does. -/
theorem decides_inList (hlist : c.operator.isList = true) {q : Json}
    (h : inList path kind c = .ok q) :
    Decides (matcher q doc) ((doc.valuesAt path).any (Newswire.inList kind c.value) = true) := by
  obtain ⟨es, hes, hq⟩ := bind_eq_ok_iff.1 h
  obtain rfl := Except.ok.inj hq
  have heq : es = listEntries c.value := by
    rw [Condition.entriesFor_eq hes, Condition.values, if_pos hlist]
  have hne := Condition.ne_nil_of_entriesFor hes
  subst heq
  cases kind with
  | number =>
    exact decides_someValue path (matcher_terms path _) (funext (any_sameScalar_numbers c.value))
  | text => exact decides_texts hne

theorem decides_written {write : String → Json} {test : String → String → Bool}
    (hwrite : ∀ value, matcher (write value) = .someValue path (Json.textIs (test value)))
    {q : Json} (h : (do return write (← c.patternValue)) = Except.ok q) :
    Decides (matcher q doc) ((doc.valuesAt path).any (Json.textIs (test c.value)) = true) := by
  obtain ⟨value, hvalue, hq⟩ := bind_eq_ok_iff.1 h
  obtain rfl := Condition.patternValue_eq hvalue
  obtain rfl := Except.ok.inj hq
  exact decides_someValue path (hwrite _) rfl

theorem decides_equal (path value : String) :
    Decides (matcher (match numberOf? value with
        | some n => any [term path (.str value), term path (.num n)]
        | none => term path (.str value)) doc)
      ((doc.valuesAt path).any (equalsValue value) = true) := by
  have htext : Decides (matcher (term path (.str value)) doc) _ :=
    decides_someValue path (matcher_term path _) rfl
  cases hn : numberOf? value with
  | none =>
    refine htext.congr ?_
    simp [equalsValue_eq, hn]
  | some n =>
    have hnumber : Decides (matcher (term path (.num n)) doc) _ :=
      decides_someValue path (matcher_term path _) rfl
    refine (decides_either htext hnumber).congr ?_
    simp [equalsValue_eq, hn, and_or_left, exists_or]

/-- **What an operator is written as tests the values as the operator does.** -/
theorem decides_operand {q : Json} (h : operand path kind c = .ok q) :
    Decides (matcher q doc)
      ((doc.valuesAt path).any (c.operator.admits kind c.value) = true) := by
  cases hop : c.operator with
  | like =>
    simp only [operand, hop] at h
    exact decides_written (fun v => by rw [matcher_wildcard, found_globOf_open]) h
  | startsWith =>
    simp only [operand, hop] at h
    exact decides_written (matcher_beginsWith path) h
  | endsWith =>
    simp only [operand, hop] at h
    exact decides_written (fun v => by rw [matcher_wildcard, found_globOf_openStart]) h
  | eq =>
    simp only [operand, hop] at h
    obtain rfl := Except.ok.inj h
    exact decides_equal path c.value
  | isIn | notIn =>
    simp only [operand, hop] at h
    exact decides_inList (by rw [hop]; rfl) h

theorem decides_present (path : String) :
    Decides (matcher (present path) doc) ((doc.valuesAt path).any Json.isScalar = true) :=
  decides_someValue path (matcher_present path) rfl

/-- **The query of a condition on a path decides the comparison of the values there.** -/
theorem decides_onPath {q : Json} (h : onPath path kind c = .ok q) :
    Decides (matcher q doc) (c.operator.accepts kind c.value (doc.valuesAt path) = true) := by
  by_cases hop : c.operator = .notIn
  · simp only [onPath, hop] at h
    obtain ⟨listed, hlisted, hq⟩ := bind_eq_ok_iff.1 h
    obtain rfl := Except.ok.inj hq
    refine (decides_butNot (decides_present path)
      (decides_inList (by rw [hop]; rfl) hlisted)).congr ?_
    rw [hop, Operator.accepts_notIn, Bool.and_eq_true, Bool.not_eq_true', Bool.not_eq_true]
    rfl
  · have hoperand : operand path kind c = .ok q := by
      rw [← h]
      unfold onPath
      split
      · next hnot => exact absurd hnot hop
      · rfl
    rw [Operator.accepts_eq_any hop]
    exact decides_operand hoperand

/-! ### Conditions on the codes of a vocabulary -/

/-- What the search asks of the layout: a tag has keys. -/
structure Suits (layout : FieldLayout) : Prop where
  /-- The key of the vocabulary. -/
  schemeKey : layout.schemeKey ≠ ""
  /-- The key of the code. -/
  codeKey : layout.codeKey ≠ ""

variable {layout : FieldLayout} {scheme : String}

theorem matcher_nested (path : String) (q : Json) :
    matcher (nested path q) = nestedMatcher (some path) (some (matcher q)) := by
  rfl

/-- An element is looked at as a document in which it stands at the path. -/
theorem decides_nested {q : Json} {p : Json → Prop}
    (h : ∀ e, Decides (matcher q (Json.rooted path e)) (p e)) :
    Decides (matcher (nested path q) doc)
      (∃ e ∈ (doc.rawValuesAt path).flatMap Matcher.elements, p e) := by
  rw [matcher_nested]
  have helements : ∀ vs : List Json, Decides (Matcher.onSome (matcher q) (vs.map (Json.rooted path)))
      (∃ e ∈ vs, p e) := by
    intro vs
    induction vs with
    | nil => exact ⟨false, rfl, by simp⟩
    | cons e vs ih => exact ((h e).or ih).congr (by simp)
  exact helements _

theorem decides_someTag (hlayout : Suits layout) {code : Json} {p : Json → Bool}
    (h : ∀ doc, Decides (matcher code doc) ((doc.valuesAt layout.codePath).any p = true)) :
    Decides (matcher (someTag layout scheme code) doc) (layout.SomeCode scheme p doc) := by
  refine decides_nested fun tag => ?_
  -- both paths begin at the tags, where the tag stands by itself
  have hscheme : Decides (matcher (term layout.schemePath (.str scheme))
      (Json.rooted layout.tagArray tag)) (layout.isTagged scheme tag = true) := by
    rw [FieldLayout.isTagged, ← Json.valuesAt_rooted layout.tagArray hlayout.schemeKey tag]
    exact decides_someValue _ (matcher_term _ _) rfl
  have hcode := h (Json.rooted layout.tagArray tag)
  rw [FieldLayout.codePath, Json.valuesAt_rooted layout.tagArray hlayout.codeKey tag] at hcode
  exact (decides_all (.cons hscheme (.cons hcode .nil))).congr (forall_mem_pair_iff _ _)

theorem decides_onTags (hlayout : Suits layout) {q : Json} (h : onTags layout scheme c = .ok q) :
    Decides (matcher q doc) (c.operator.accepts .text c.value
      ((FieldKind.vocabulary scheme).queried layout doc) = true) := by
  obtain ⟨code, hcode, hq⟩ := bind_eq_ok_iff.1 h
  have hadmits : Decides (matcher (someTag layout scheme code) doc) _ :=
    decides_someTag hlayout fun doc => decides_operand hcode
  by_cases hop : c.operator = .notIn
  · rw [hop] at hq
    obtain rfl := Except.ok.inj hq
    have hpresent : Decides (matcher (someTag layout scheme (present layout.codePath)) doc) _ :=
      decides_someTag hlayout fun doc => decides_present layout.codePath
    refine (decides_butNot hpresent hadmits).congr ?_
    rw [hop, Operator.notIn_accepts_codes]
  · have hsome : someTag layout scheme code = q := by
      refine Except.ok.inj (Eq.trans ?_ hq)
      split
      · next hnot => exact absurd hnot hop
      · rfl
    rw [Operator.accepts_codes hop, ← hsome]
    exact hadmits

/-! ### All conditions -/

/-- The query of a condition decides the comparison of the values that queries look at. -/
theorem decides_condition (hlayout : Suits layout) {field : FieldKind} {q : Json}
    (h : condition layout field c = .ok q) :
    Decides (matcher q doc)
      (c.operator.accepts field.values c.value (field.queried layout doc) = true) := by
  cases field with
  | plain path values => exact decides_onPath h
  | freeText key => exact decides_onPath h
  | vocabulary scheme => exact decides_onTags hlayout h

end SearchQuery

end Newswire
