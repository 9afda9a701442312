import Newswire.Proofs.Query.Target
import Newswire.Proofs.Rulebook.Walk
import Newswire.Query.Store
import Newswire.Query.Store.Matching

/-!
# What store queries mean

The matcher of a store query is taken apart along the shapes that conditions are compiled to, and
each shape is shown to decide what it stands for, on every document.

* `StoreQuery.faithful` : conjunctions and disjunctions mean what they say.
* `StoreQuery.decides_onPath`, `StoreQuery.decides_onTags` : the query of a condition on a path, or
  on the codes of a vocabulary, decides the comparison of the values that it looks at.
* `StoreQuery.decides_condition` : **the query of any condition** does so, on a layout whose keys
  are no operators (`StoreQuery.Suits`).
-/

namespace Newswire

namespace StoreQuery

variable {doc : Json} {path : String} {kind : ValueKind} {c : Condition}

/-! ### Combinations -/

theorem matchers_eq (qs : List Json) : matchers qs = qs.map matcher := by
  induction qs with
  | nil => rw [matchers]; rfl
  | cons q qs ih => rw [matchers, ih]; rfl

theorem decides_matchers {qs : List Json} {ps : List Prop}
    (h : List.Forall₂ (fun p q => Decides (matcher q doc) p) ps qs) :
    List.Forall₂ (fun p m => Decides (m doc) p) ps (matchers qs) := by
  rw [matchers_eq]
  exact List.forall₂_map_right_iff.2 h

theorem matcher_obj (members : List (String × Json)) :
    matcher (.obj members) = .all (clauses members) := by
  rfl

theorem clauses_combination (qs : List Json) :
    clauses [("$and", .arr qs)] = [.all (matchers qs)] ∧
      clauses [("$or", .arr qs)] = [.any (matchers qs)] ∧
      clauses [("$nor", .arr qs)] = [.not (.any (matchers qs))] := by
  simp [clauses]

theorem decides_of_clauses {key : String} {operand : Json} {m : Matcher} {P : Prop}
    (hm : clauses [(key, operand)] = [m]) (h : Decides (m doc) P) :
    Decides (matcher (.obj [(key, operand)]) doc) P := by
  rw [matcher_obj, hm]
  exact (h.and ⟨true, rfl, Iff.rfl⟩).congr (and_iff_left rfl)

theorem decides_all {qs : List Json} {ps : List Prop}
    (h : List.Forall₂ (fun p q => Decides (matcher q doc) p) ps qs) :
    Decides (matcher (all qs) doc) (∀ p ∈ ps, p) :=
  decides_of_clauses (clauses_combination qs).1 (Matcher.decides_all (decides_matchers h))

theorem decides_both {q q' : Json} {P Q : Prop} (hq : Decides (matcher q doc) P)
    (hq' : Decides (matcher q' doc) Q) : Decides (matcher (all [q, q']) doc) (P ∧ Q) :=
  (decides_all (.cons hq (.cons hq' .nil))).congr (forall_mem_pair_iff P Q)

theorem decides_any {qs : List Json} {ps : List Prop}
    (h : List.Forall₂ (fun p q => Decides (matcher q doc) p) ps qs) :
    Decides (matcher (any qs) doc) (∃ p ∈ ps, p) :=
  decides_of_clauses (clauses_combination qs).2.1 (Matcher.decides_any (decides_matchers h))

theorem decides_noneOf {qs : List Json} {ps : List Prop}
    (h : List.Forall₂ (fun p q => Decides (matcher q doc) p) ps qs) :
    Decides (matcher (noneOf qs) doc) (¬∃ p ∈ ps, p) :=
  decides_of_clauses (clauses_combination qs).2.2
    (Matcher.decides_not (Matcher.decides_any (decides_matchers h)))

theorem faithful (doc : Json) : Rulebook.Faithful target matcher doc where
  everything := by
    have heverything : matcher target.everything = .all [] := by rfl
    rw [heverything]
    exact ⟨true, rfl, by simp⟩
  all h := decides_unlessSingle_all h (decides_all h)
  any _ h := decides_unlessSingle_any h (decides_any h)

/-! ### The values at a path -/

/-- A key that leads into the document, and is no combination of queries. -/
def IsPath (key : String) : Prop := key.startsWith "$" = false

theorem clauses_nil : clauses [] = [] := by
  rfl

theorem clauses_text (hpath : IsPath path) (s : String) :
    clauses [(path, .str s)] = [.someValue path (·.sameScalar (.str s))] := by
  unfold clauses
  simp only [show path.startsWith "$" = false from hpath, Bool.false_eq_true, if_false]
  rfl

theorem clauses_operators (hpath : IsPath path) {members : List (String × Json)}
    (h : isOperators members = true) : clauses [(path, .obj members)] =
      [.all (operators path (members.lookup "$options") members)] := by
  unfold clauses
  simp only [show path.startsWith "$" = false from hpath, Bool.false_eq_true, if_false, h, if_true]
  rfl

theorem decides_text (hpath : IsPath path) (s : String) :
    Decides (matcher (field path (.str s)) doc)
      ((doc.valuesAt path).any (·.sameScalar (.str s)) = true) :=
  decides_of_clauses (clauses_text hpath s) (Matcher.decides_test _)

/-- An operator asks of the values at the path, unless it is about the elements of an array. -/
theorem operators_cons (options : Option Json) {op : String} (hop : op ≠ "$elemMatch") (arg : Json)
    (rest : List (String × Json)) : operators path options ((op, arg) :: rest) =
      operatorMatcher path options op arg :: operators path options rest := by
  show (if op = "$elemMatch" then _ else _) :: _ = _
  rw [if_neg hop]

theorem operators_nil (options : Option Json) : operators path options [] = [] := by
  rfl

theorem decides_of_operators (hpath : IsPath path) {members : List (String × Json)} {m : Matcher}
    {P : Prop} (hops : isOperators members = true)
    (hm : operators path (members.lookup "$options") members = [m]) (h : Decides (m doc) P) :
    Decides (matcher (field path (.obj members)) doc) P := by
  refine decides_of_clauses (clauses_operators hpath hops) ?_
  rw [hm]
  exact (h.and ⟨true, rfl, Iff.rfl⟩).congr (and_iff_left rfl)

theorem decides_isIn (hpath : IsPath path) {α : Type} {xs : List α} {entry : α → Json}
    {p : α → Json → Bool} (h : ∀ x ∈ xs, entryMatcher path (entry x) = .someValue path (p x)) :
    Decides (matcher (field path (isIn (xs.map entry))) doc)
      ((doc.valuesAt path).any (fun v => xs.any (p · v)) = true) := by
  have hm : operators path none [("$in", .arr (xs.map entry))] =
      [.any (xs.map fun x => .someValue path (p x))] := by
    simp (disch := decide) only [operators_cons, operators_nil, operatorMatcher, List.map_map]
    rw [← List.map_congr_left h]
    rfl
  exact decides_of_operators hpath (by simp [isOperators]) hm (Matcher.decides_any_someValue _ _ _ _)

theorem decides_notIn (hpath : IsPath path) {α : Type} {xs : List α} {entry : α → Json}
    {p : α → Json → Bool} (h : ∀ x ∈ xs, entryMatcher path (entry x) = .someValue path (p x)) :
    Decides (matcher (field path (notIn (xs.map entry))) doc)
      (¬(doc.valuesAt path).any (fun v => xs.any (p · v)) = true) := by
  have hm : operators path none [("$nin", .arr (xs.map entry))] =
      [.not (.any (xs.map fun x => .someValue path (p x)))] := by
    simp (disch := decide) only [operators_cons, operators_nil, operatorMatcher, List.map_map]
    rw [← List.map_congr_left h]
    rfl
  exact decides_of_operators hpath (by simp [isOperators]) hm
    (Matcher.decides_not (Matcher.decides_any_someValue _ _ _ _))

theorem patternMatcher_caseless {pattern : String} {steps : Text.Pattern}
    (h : Text.Pattern.read? pattern.toList = some steps) :
    patternMatcher path (.str pattern) (some (.str "i")) =
      .someValue path (Json.textIs (steps.found true)) :=
  Matcher.someFound_eq h path true

theorem decides_caseless (hpath : IsPath path) {pattern : String} {steps : Text.Pattern}
    (h : Text.Pattern.read? pattern.toList = some steps) :
    Decides (matcher (field path (caseless pattern)) doc)
      ((doc.valuesAt path).any (Json.textIs (steps.found true)) = true) := by
  refine decides_of_clauses (clauses_operators hpath (by simp [isOperators])) ?_
  have hm : operators path (some (.str "i")) [("$options", .str "i"), ("$regex", .str pattern)] =
      [.test fun _ => true, .someValue path (Json.textIs (steps.found true))] := by
    simp (disch := decide) only [operators_cons, operators_nil]
    simp [operatorMatcher, patternMatcher_caseless h]
  have hfound : Decides (Matcher.someValue path (Json.textIs (steps.found true)) doc) _ :=
    Matcher.decides_test _
  rw [show List.lookup "$options" [("$options", Json.str "i"), ("$regex", .str pattern)] =
    some (.str "i") from rfl, hm]
  exact (hfound.and ⟨true, rfl, Iff.rfl⟩).congr (and_iff_left rfl)

theorem decides_present (hpath : IsPath path) :
    Decides (matcher (field path present) doc) ((doc.valuesAt path).any Json.isScalar = true) := by
  have htest : (fun v => ((["string", "number", "bool"].map Json.str).filterMap Json.text?).any
      (hasType v)) = Json.isScalar := by
    funext v
    cases v <;> simp [Json.text?, hasType, Json.isScalar]
  have hm : operators path none [("$type", .strings ["string", "number", "bool"])] =
      [.someValue path Json.isScalar] := by
    simp (disch := decide) only [operators_cons, operators_nil, operatorMatcher, Json.strings,
      typeMatcher, htest]
  exact decides_of_operators hpath (by simp [isOperators]) hm (Matcher.decides_test _)

/-! ### Conditions on the values at a path -/

theorem entryMatcher_of_get? {entry : Json} (h : entry.get? "$regex" = none) :
    entryMatcher path entry = .someValue path (·.sameScalar entry) := by
  rw [entryMatcher, h]

theorem entryMatcher_caseless (e : String) :
    entryMatcher path (caseless (exactPattern e)) =
      .someValue path (Json.textIs (caselessEqual e)) := by
  have hentry : entryMatcher path (caseless (exactPattern e)) =
    patternMatcher path (.str (exactPattern e)) (some (.str "i")) := rfl
  rw [caselessEqual_eq, hentry, patternMatcher_caseless (read?_exactPattern e)]

theorem exists_tests_of_entries (hlist : c.operator.isList = true) {es : List Json}
    (h : entries kind c = .ok es) (path : String) :
    ∃ (α : Type) (xs : List α) (entry : α → Json) (p : α → Json → Bool), es = xs.map entry ∧
      (∀ x ∈ xs, entryMatcher path (entry x) = .someValue path (p x)) ∧
      ∀ v, xs.any (p · v) = inList kind c.value v := by
  obtain ⟨values, hvalues, hes⟩ := bind_eq_ok_iff.1 h
  have heq : values = listEntries c.value := by
    rw [Condition.entriesFor_eq hvalues, Condition.values, if_pos hlist]
  obtain rfl := Except.ok.inj hes
  subst heq
  -- numbers are written as they are, texts as patterns of their own
  cases kind with
  | number =>
    refine ⟨Json, _, id, fun w v => v.sameScalar w, (List.map_id _).symm, fun w hw => ?_,
      any_sameScalar_numbers c.value⟩
    obtain ⟨e, -, he⟩ := List.mem_filterMap.1 hw
    obtain ⟨n, -, rfl⟩ := Option.map_eq_some_iff.1 he
    exact entryMatcher_of_get? rfl
  | text =>
    exact ⟨String, _, _, fun e v => v.textIs (caselessEqual e), rfl,
      fun e _ => entryMatcher_caseless e, fun _ => rfl⟩

theorem decides_isIn_entries (hpath : IsPath path) (hlist : c.operator.isList = true)
    {es : List Json} (h : entries kind c = .ok es) :
    Decides (matcher (field path (isIn es)) doc)
      ((doc.valuesAt path).any (inList kind c.value) = true) := by
  obtain ⟨α, xs, entry, p, rfl, hentry, hp⟩ := exists_tests_of_entries hlist h path
  refine (decides_isIn hpath hentry).congr ?_
  simp only [hp]

theorem decides_notIn_entries (hpath : IsPath path) (hlist : c.operator.isList = true)
    {es : List Json} (h : entries kind c = .ok es) :
    Decides (matcher (field path (notIn es)) doc)
      (¬(doc.valuesAt path).any (inList kind c.value) = true) := by
  obtain ⟨α, xs, entry, p, rfl, hentry, hp⟩ := exists_tests_of_entries hlist h path
  refine (decides_notIn hpath hentry).congr ?_
  simp only [hp]

theorem decides_equal (hpath : IsPath path) (value : String) :
    Decides (matcher (field path (match numberOf? value with
        | some n => isIn [.str value, .num n]
        | none => .str value)) doc)
      ((doc.valuesAt path).any (equalsValue value) = true) := by
  cases hn : numberOf? value with
  | none =>
    refine (decides_text hpath value).congr ?_
    simp [equalsValue_eq, hn]
  | some n =>
    -- the value is looked for as a text and as a number
    have hentry : ∀ w ∈ [Json.str value, .num n],
        entryMatcher path (id w) = .someValue path (·.sameScalar w) := by
      intro w hw
      refine entryMatcher_of_get? ?_
      rcases List.mem_pair.1 hw with rfl | rfl <;> rfl
    have htests : Decides (matcher (field path (isIn ([Json.str value, .num n].map id))) doc) _ :=
      decides_isIn hpath hentry
    rw [List.map_id] at htests
    refine htests.congr ?_
    simp [equalsValue_eq, hn]

theorem decides_pattern (hpath : IsPath path) (hpat : c.operator.isPattern = true) {o : Json}
    (h : operand kind c = .ok o) :
    Decides (matcher (field path o) doc)
      ((doc.valuesAt path).any (Json.textIs ((c.operator.steps c.value).found true)) = true) := by
  have hcompiled : ∃ value, c.patternValue = .ok value ∧
      caseless ((c.operator.pattern? value).getD "") = o := by
    unfold operand at h
    cases hop : c.operator with
    | like | startsWith | endsWith =>
      rw [hop] at h
      obtain ⟨value, hvalue, ho⟩ := bind_eq_ok_iff.1 h
      exact ⟨value, hvalue, Except.ok.inj ho⟩
    | eq | isIn | notIn => rw [hop] at hpat; cases hpat
  obtain ⟨value, hvalue, rfl⟩ := hcompiled
  obtain rfl := Condition.patternValue_eq hvalue
  obtain ⟨pattern, hp, hread⟩ := Operator.read?_pattern hpat c.value
  rw [hp]
  exact decides_caseless hpath hread

/-- **What an operator is written as tests the values as the operator does.** -/
theorem decides_operand (hpath : IsPath path) {o : Json} (h : operand kind c = .ok o) :
    Decides (matcher (field path o) doc)
      ((doc.valuesAt path).any (c.operator.admits kind c.value) = true) := by
  cases hop : c.operator with
  | like | startsWith | endsWith =>
    have hfound : Decides (matcher (field path o) doc) _ :=
      decides_pattern hpath (by rw [hop]; rfl) h
    rw [hop] at hfound
    exact hfound
  | eq =>
    simp only [operand, hop] at h
    obtain rfl := Except.ok.inj h
    exact decides_equal hpath c.value
  | isIn | notIn =>
    simp only [operand, hop] at h
    obtain ⟨es, hes, rfl⟩ := map_eq_ok_iff.1 h
    exact decides_isIn_entries hpath (by rw [hop]; rfl) hes

/-- **The query of a condition on a path decides the comparison of the values there.** -/
theorem decides_onPath (hpath : IsPath path) {q : Json} (h : onPath path kind c = .ok q) :
    Decides (matcher q doc) (c.operator.accepts kind c.value (doc.valuesAt path) = true) := by
  by_cases hop : c.operator = .notIn
  · simp only [onPath, hop] at h
    obtain ⟨es, hes, hq⟩ := bind_eq_ok_iff.1 h
    obtain rfl := Except.ok.inj hq
    have hlist : c.operator.isList = true := by rw [hop]; rfl
    -- what is not in the list has to be there all the same
    have hnone : Decides (matcher (field path (notIn es)) doc) _ :=
      decides_notIn_entries hpath hlist hes
    refine (decides_both (decides_present hpath) hnone).congr ?_
    rw [hop, Operator.accepts_notIn, Bool.and_eq_true, Bool.not_eq_true', Bool.not_eq_true]
    rfl
  · have hfield : field path <$> operand kind c = .ok q := by
      rw [← h]
      unfold onPath
      split
      · next hnot => exact absurd hnot hop
      · rfl
    obtain ⟨o, ho, rfl⟩ := map_eq_ok_iff.1 hfield
    rw [Operator.accepts_eq_any hop]
    exact decides_operand hpath ho

/-! ### Conditions on the codes of a vocabulary -/

/-- What a member asks does not depend on the members after it. -/
theorem exists_clause (key : String) (operand : Json) :
    ∃ m, ∀ rest, clauses ((key, operand) :: rest) = m :: clauses rest :=
  ⟨_, fun rest => clauses.eq_def ((key, operand) :: rest)⟩

theorem decides_members {k k' : String} {o o' : Json} {P Q : Prop}
    (h : Decides (matcher (field k o) doc) P) (h' : Decides (matcher (field k' o') doc) Q) :
    Decides (matcher (.obj [(k, o), (k', o')]) doc) (P ∧ Q) := by
  -- with one member the clause stands alone, with two it stands before the other
  obtain ⟨m, hm⟩ := exists_clause k o
  rw [field, matcher_obj, hm, clauses_nil, Matcher.all_singleton] at h
  rw [field, matcher_obj] at h'
  rw [matcher_obj, hm]
  exact h.and h'

/-- The members of an object may be listed in another order than they were given. -/
theorem decides_object {k k' : String} (hne : k ≠ k') {o o' : Json} {P Q : Prop}
    (h : Decides (matcher (field k o) doc) P) (h' : Decides (matcher (field k' o') doc) Q) :
    Decides (matcher (.object [(k, o), (k', o')]) doc) (P ∧ Q) := by
  simp only [Json.object, Json.sortMembers, List.foldl_cons, List.foldl_nil, Keyed.insert,
    Ne.symm hne, if_false]
  split
  · exact (decides_members h' h).congr and_comm
  · exact decides_members h h'

/-- What the store asks of the layout: the keys are no operators, and those of a tag are told
apart. -/
structure Suits (layout : FieldLayout) : Prop where
  /-- The path of the tags. -/
  tagArray : IsPath layout.tagArray
  /-- The key of the vocabulary. -/
  schemeKey : IsPath layout.schemeKey
  /-- The key of the code. -/
  codeKey : IsPath layout.codeKey
  /-- They are different keys. -/
  schemeKey_ne : layout.schemeKey ≠ layout.codeKey

variable {layout : FieldLayout} {scheme : String}

theorem decides_elements (hpath : IsPath path) {q : Json} {p : Json → Prop}
    (h : ∀ e, Decides (matcher q e) (p e)) :
    Decides (matcher (field path (someItem q)) doc)
      (∃ e ∈ (doc.rawValuesAt path).flatMap Matcher.elements, p e) := by
  have hm : operators path none [("$elemMatch", q)] = [elementMatcher path (matcher q)] := by
    rfl
  refine decides_of_operators hpath (by simp [isOperators]) hm ?_
  refine (decides_mapM_any fun v _ => Matcher.decides_onSome fun e _ => h e).congr ?_
  simp only [List.mem_flatMap]
  exact ⟨fun ⟨v, hv, e, he, hp⟩ => ⟨e, ⟨v, hv, he⟩, hp⟩,
    fun ⟨e, ⟨v, hv, he⟩, hp⟩ => ⟨v, hv, e, he, hp⟩⟩

theorem decides_someTag (hlayout : Suits layout) {code : Json} {p : Json → Bool}
    (h : ∀ tag, Decides (matcher (field layout.codeKey code) tag)
      ((tag.valuesAt layout.codeKey).any p = true)) :
    Decides (matcher (someTag layout scheme code) doc) (layout.SomeCode scheme p doc) :=
  decides_elements hlayout.tagArray fun tag =>
    decides_object hlayout.schemeKey_ne (decides_text hlayout.schemeKey scheme) (h tag)

theorem decides_onTags (hlayout : Suits layout) {q : Json} (h : onTags layout scheme c = .ok q) :
    Decides (matcher q doc) (c.operator.accepts .text c.value
      ((FieldKind.vocabulary scheme).queried layout doc) = true) := by
  obtain ⟨code, hcode, hq⟩ := bind_eq_ok_iff.1 h
  have hadmits : Decides (matcher (someTag layout scheme code) doc) _ :=
    decides_someTag hlayout fun tag => decides_operand hlayout.codeKey hcode
  by_cases hop : c.operator = .notIn
  · rw [hop] at hq
    obtain rfl := Except.ok.inj hq
    have hpresent : Decides (matcher (someTag layout scheme present) doc) _ :=
      decides_someTag hlayout fun tag => decides_present hlayout.codeKey
    refine (decides_both hpresent (decides_noneOf (.cons hadmits .nil))).congr ?_
    rw [hop, Operator.notIn_accepts_codes, exists_mem_single_iff]
  · have hsome : someTag layout scheme code = q := by
      refine Except.ok.inj (Eq.trans ?_ hq)
      split
      · next hnot => exact absurd hnot hop
      · rfl
    rw [Operator.accepts_codes hop, ← hsome]
    exact hadmits

/-! ### All conditions -/

/-- The query of a condition decides the comparison of the values that queries look at. -/
theorem decides_condition (hlayout : Suits layout) {field : FieldKind}
    (hpath : ∀ path values, field.path? layout = some (path, values) → IsPath path) {q : Json}
    (h : condition layout field c = .ok q) :
    Decides (matcher q doc)
      (c.operator.accepts field.values c.value (field.queried layout doc) = true) := by
  cases field with
  | plain path values => exact decides_onPath (hpath _ _ rfl) h
  | freeText key => exact decides_onPath (hpath _ _ rfl) h
  | vocabulary scheme => exact decides_onTags hlayout h


end StoreQuery

end Newswire
