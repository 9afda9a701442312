import Newswire.Desk.Basic
import Newswire.Proofs.Query.Search
import Newswire.Proofs.Query.Store

/-!
# Evaluation and both kinds of queries agree

A rule is decided in three ways: it is evaluated on an item, or compiled to a store query or to a
search query that is run on the item.  The three differ in how they find the values of a field and
in how they compare them, and they agree all the same.

* `FieldKind.queried_eq_candidates` : on a layout of plain keys (`FieldLayout.Plain`) and an item
  whose tags name their vocabulary by one value (`FieldLayout.Tidy`), queries look at the values
  that evaluation looks at.
* `Desk.decides_compile` : the queries of a rule decide what the queries of its conditions decide.
* `Desk.decides_holds`, `Desk.decides_storeQuery`, `Desk.decides_searchQuery` : each way decides
  `Desk.Selects`, which speaks of no engine.
* `Desk.holds_eq_queries` : **all three have the same outcome**, and both kinds of queries over an
  archive find exactly the items that evaluation accepts, in key order.
-/

namespace Newswire

open Rulebook

/-! ### Plain layouts and tidy items -/

/-- A key of an object that is a path by itself and no operator. -/
structure IsKey (key : String) : Prop where
  /-- It is not empty. -/
  ne_empty : key ≠ ""
  /-- It is a path of one segment. -/
  dotless : '.' ∉ key.toList
  /-- It does not begin like an operator. -/
  path : StoreQuery.IsPath key

namespace FieldLayout

/-- Tags, their vocabularies and their codes are found under plain keys. -/
structure Plain (layout : FieldLayout) : Prop where
  /-- The key of the tags. -/
  tagArray : IsKey layout.tagArray
  /-- The key of the vocabulary in a tag. -/
  schemeKey : IsKey layout.schemeKey
  /-- The key of the code in a tag. -/
  codeKey : IsKey layout.codeKey
  /-- The keys in a tag are different. -/
  schemeKey_ne : layout.schemeKey ≠ layout.codeKey

/-- The item is an object in which no tag has an array under the key of the vocabulary. -/
def Tidy (layout : FieldLayout) (item : Json) : Prop :=
  item.isObject = true ∧ ∀ tags, item.get? layout.tagArray = some (.arr tags) →
    ∀ tag ∈ tags, ∀ vs, tag.get? layout.schemeKey ≠ some (.arr vs)

variable {layout : FieldLayout} {scheme : String}

theorem Plain.store (h : layout.Plain) : StoreQuery.Suits layout :=
  ⟨h.tagArray.path, h.schemeKey.path, h.codeKey.path, h.schemeKey_ne⟩

theorem Plain.search (h : layout.Plain) : SearchQuery.Suits layout :=
  ⟨h.schemeKey.ne_empty, h.codeKey.ne_empty⟩

theorem sameScalar_text_iff {v : Json} {s : String} :
    v.sameScalar (.str s) = true ↔ v = .str s := by
  cases v <;> simp [Json.sameScalar]

/-- **A tag belongs to a vocabulary for queries** if its name stands under the key, or in an array
there. -/
theorem isTagged_iff (hkey : IsKey layout.schemeKey) {tag : Json} (hobj : tag.isObject = true) :
    layout.isTagged scheme tag = true ↔ tag.get? layout.schemeKey = some (.str scheme) ∨
      ∃ vs, tag.get? layout.schemeKey = some (.arr vs) ∧ .str scheme ∈ vs := by
  cases tag with
  | obj members =>
    rw [isTagged, Json.valuesAt_key hkey.ne_empty hkey.dotless, List.any_eq_true]
    simp only [sameScalar_text_iff, Json.get?]
    cases members.lookup layout.schemeKey with
    | none => simp
    | some v => cases v <;> simp [Json.opened, eq_comm]
  | null | bool _ | num _ | str _ | arr _ => cases hobj

/-- The vocabulary of a tag is read alike with and without fan-out, unless it is an array that lists
the vocabulary. -/
theorem isTagged_eq (hkey : IsKey layout.schemeKey) {tag : Json}
    (hlist : ∀ vs, tag.get? layout.schemeKey = some (.arr vs) → .str scheme ∉ vs)
    (hobj : tag.isObject = true) :
    layout.isTagged scheme tag =
      ((tag.get? layout.schemeKey).bind Json.text? == some scheme) := by
  have hname : ∀ v : Json, v.text? = some scheme ↔ v = .str scheme := by
    intro v
    cases v <;> simp [Json.text?]
  rw [Bool.eq_iff_iff, isTagged_iff hkey hobj, beq_iff_eq, Option.bind_eq_some_iff]
  simp only [hname, exists_eq_right]
  refine or_iff_left ?_
  rintro ⟨vs, hvs, hmem⟩
  exact hlist vs hvs hmem

theorem get?_of_not_isObject {v : Json} (h : v.isObject = false) (key : String) :
    v.get? key = none := by
  cases v <;> first | rfl | cases h

theorem filter_isTagged (hkey : IsKey layout.schemeKey) {tags : List Json}
    (h : ∀ tag ∈ tags, ∀ vs, tag.get? layout.schemeKey = some (.arr vs) → .str scheme ∉ vs) :
    (tags.filter Json.isObject).filter (layout.isTagged scheme) =
      tags.filter fun tag => (tag.get? layout.schemeKey).bind Json.text? == some scheme := by
  rw [List.filter_filter]
  refine List.filter_congr fun tag htag => ?_
  cases hobj : tag.isObject with
  | true => rw [isTagged_eq hkey (h tag htag) hobj, Bool.and_true]
  | false => simp [get?_of_not_isObject hobj]

end FieldLayout

namespace FieldKind

variable {layout : FieldLayout} {scheme : String} {item : Json}

/-- The codes of a vocabulary are the same for queries and for evaluation, where the tags are found
at one place and none of them lists the vocabulary in an array. -/
theorem queried_vocabulary (hkey : IsKey layout.schemeKey)
    (hplace : item.rawValuesAt layout.tagArray = (item.fieldAt layout.tagArray).toList)
    (hlist : ∀ tags, item.fieldAt layout.tagArray = some (.arr tags) → ∀ tag ∈ tags, ∀ vs,
      tag.get? layout.schemeKey = some (.arr vs) → .str scheme ∉ vs) :
    (vocabulary scheme).queried layout item = (vocabulary scheme).candidates layout item := by
  simp only [queried, FieldLayout.tagsOf, candidates, FieldLayout.codes, hplace]
  cases hv : item.fieldAt layout.tagArray with
  | none => rfl
  | some v =>
    cases v with
    | arr tags =>
      have hfilter := FieldLayout.filter_isTagged hkey (hlist tags hv)
      simp [Matcher.elements, hfilter]
    | null | bool _ | num _ | str _ | obj _ => rfl

/-- **On tidy items queries look at the values that evaluation looks at.** -/
theorem queried_eq_candidates (hlayout : layout.Plain) (htidy : layout.Tidy item)
    (kind : FieldKind) : kind.queried layout item = kind.candidates layout item := by
  cases kind with
  | plain path values => rfl
  | freeText key => rfl
  | vocabulary scheme =>
    obtain ⟨hobj, htags⟩ := htidy
    cases item with
    | obj members =>
      have hdot := hlayout.tagArray.dotless
      refine queried_vocabulary hlayout.schemeKey ?_ fun tags hv tag htag vs hvs => ?_
      · rw [Json.rawValuesAt_key hdot, Json.fieldAt_key hdot]
      · rw [Json.fieldAt_key hdot] at hv
        exact absurd hvs (htags tags hv tag htag vs)
    | null | bool _ | num _ | str _ | arr _ => cases hobj

end FieldKind

/-! ### The three ways to decide -/

namespace Desk

/-- A rule selects the item; without a rule every item is selected. -/
def Selects (d : Desk) (r : Option Rule) (item : Json) : Prop :=
  ∀ rule ∈ r, d.book.Selects (fun c => c.holds d.schema item = true) rule

/-- No condition that the rule demands reads a path that begins like an operator. -/
def ReadsPaths (d : Desk) (r : Option Rule) : Prop :=
  ∀ rule ∈ r, ∀ c, d.book.Demands rule c → ∀ path values,
    (d.schema.resolve c.field).path? d.schema.layout = some (path, values) → StoreQuery.IsPath path

variable {d : Desk} {r : Option Rule} {item : Json}

theorem readsPaths_of_saved (h : (d.book.conditions.entries.all fun e =>
    ((d.schema.resolve e.2.field).path? d.schema.layout).all fun p => !p.1.startsWith "$") = true) :
    d.ReadsPaths r := by
  intro rule _ c hc path values hpath
  obtain ⟨id, hid⟩ := hc.exists_saved
  have he := List.all_eq_true.1 h (id, c) (Table.mem_entries_iff.2 hid)
  rw [hpath, Option.all_some, Bool.not_eq_true'] at he
  exact he

theorem decides_holds {target : Target} {q : Json}
    (h : d.book.compile d.schema target r = .ok q) :
    Decides (d.book.holds d.schema item r) (d.Selects r item) := by
  cases r with
  | none => exact ⟨true, rfl, by simp [Selects]⟩
  | some rule =>
    have hwalk := walkable_of_compileFrom h
    exact hwalk.decides_holdsFrom.congr (by simp [Selects])

/-- Running the query of a rule decides whether the rule selects the item, when `f` says what the
queries of its conditions decide. -/
theorem decides_compile {target : Target} {run : Json → Matcher} {q : Json} {f : Condition → Prop}
    (hrun : Faithful target run item)
    (hconds : ∀ rule ∈ r, ∀ c, d.book.Demands rule c → Answers d.schema target run item f c)
    (h : d.book.compile d.schema target r = .ok q) :
    Decides (run q item) (∀ rule ∈ r, d.book.Selects f rule) := by
  cases r with
  | none =>
    obtain rfl := Except.ok.inj h
    exact hrun.everything.congr (by simp)
  | some rule =>
    have hwalk := (walkable_of_compileFrom h).imp fun c hc _ => hconds rule rfl c hc
    exact (hwalk.decides_compiled hrun h).congr (by simp)

/-- Evaluation does not fail and accepts the item. -/
def evaluated (d : Desk) (r : Option Rule) (item : Json) : Bool :=
  (d.book.holds d.schema item r).toOption.getD false

theorem accepts_queried_iff (hlayout : d.schema.layout.Plain)
    (htidy : d.schema.layout.Tidy item) (c : Condition) :
    (c.operator.accepts (d.schema.resolve c.field).values c.value
      ((d.schema.resolve c.field).queried d.schema.layout item) = true) ↔
        c.holds d.schema item = true := by
  rw [FieldKind.queried_eq_candidates hlayout htidy]
  rfl

theorem decides_storeQuery (hlayout : d.schema.layout.Plain) (hpaths : d.ReadsPaths r)
    (htidy : d.schema.layout.Tidy item) {q : Json} (h : d.storeQuery r = .ok q) :
    Decides (StoreQuery.matcher q item) (d.Selects r item) := by
  refine decides_compile (StoreQuery.faithful item) (fun rule hrule c hc q hq => ?_) h
  exact (StoreQuery.decides_condition hlayout.store (hpaths rule hrule c hc) hq).congr
    (accepts_queried_iff hlayout htidy c)

theorem decides_searchQuery (hlayout : d.schema.layout.Plain)
    (htidy : d.schema.layout.Tidy item) {q : Json} (h : d.searchQuery r = .ok q) :
    Decides (SearchQuery.matcher q item) (d.Selects r item) := by
  refine decides_compile (SearchQuery.faithful item) (fun rule hrule c hc q hq => ?_) h
  exact (SearchQuery.decides_condition hlayout.search hq).congr
    (accepts_queried_iff hlayout htidy c)

/-! ### Stored items -/

end Desk

namespace Archive

/-- A matcher that finds no fault in the stored items finds those that it accepts, in key order. -/
theorem run_eq_ok {a : Archive} {m : Matcher} {accepted : Json → Bool}
    (h : ∀ key item, a.get? key = some item → m item = .ok (accepted item)) :
    a.run m = .ok ⟨(a.items.entries.filter fun e => accepted e.2).map (·.2),
      (a.items.entries.filter fun e => accepted e.2).length⟩ := by
  have hfilter : a.items.entries.filterM (fun e => m e.2) =
      .ok (a.items.entries.filter fun e => accepted e.2) :=
    filterM_eq_ok fun e he => h e.1 e.2 (Table.mem_entries_iff.1 he)
  rw [run]
  show (a.items.entries.filterM (fun e => m e.2) >>= _) = _
  rw [hfilter]
  rfl

end Archive

namespace Desk

variable {d : Desk} {r : Option Rule}

/-- **Evaluation, store queries and search queries agree** on every tidy item, and either kind of
query over an archive of such items finds exactly those that evaluation accepts, in key order. -/
theorem holds_eq_queries (hlayout : d.schema.layout.Plain) (hpaths : d.ReadsPaths r)
    {store search : Json} (hstore : d.storeQuery r = .ok store)
    (hsearch : d.searchQuery r = .ok search) :
    (∀ item, d.schema.layout.Tidy item → ∃ v, d.book.holds d.schema item r = .ok v ∧
      StoreQuery.matcher store item = .ok v ∧ SearchQuery.matcher search item = .ok v) ∧
    ∀ a : Archive, (∀ key item, a.get? key = some item → d.schema.layout.Tidy item) →
      ∃ found : List (String × Json), Keyed.Sorted found ∧
        (∀ key item, (key, item) ∈ found ↔
          a.get? key = some item ∧ d.book.holds d.schema item r = .ok true) ∧
        d.queryStore a r = .ok ⟨found.map (·.2), found.length⟩ ∧
        d.querySearch a r = .ok ⟨found.map (·.2), found.length⟩ := by
  have hagree : ∀ item, d.schema.layout.Tidy item → ∃ v, d.book.holds d.schema item r = .ok v ∧
      StoreQuery.matcher store item = .ok v ∧ SearchQuery.matcher search item = .ok v := by
    intro item htidy
    have hholds : Decides (d.book.holds d.schema item r) _ := decides_holds hstore
    obtain ⟨v, hv, hs⟩ := hholds.agree (decides_storeQuery hlayout hpaths htidy hstore)
    obtain ⟨w, hw, hq⟩ := hholds.agree (decides_searchQuery hlayout htidy hsearch)
    obtain rfl : v = w := Except.ok.inj (hv.symm.trans hw)
    exact ⟨v, hv, hs, hq⟩
  refine ⟨hagree, fun a htidy => ?_⟩
  have haccepted : ∀ key item, a.get? key = some item →
      d.book.holds d.schema item r = .ok (d.evaluated r item) ∧
      StoreQuery.matcher store item = .ok (d.evaluated r item) ∧
      SearchQuery.matcher search item = .ok (d.evaluated r item) := by
    intro key item hitem
    obtain ⟨v, hv, hs, hq⟩ := hagree item (htidy key item hitem)
    have hacc : d.evaluated r item = v := by simp [evaluated, hv, Except.toOption]
    rw [hacc]
    exact ⟨hv, hs, hq⟩
  refine ⟨a.items.entries.filter fun e => d.evaluated r e.2, a.items.sorted.filter _, ?_, ?_, ?_⟩
  · intro key item
    rw [List.mem_filter, Table.mem_entries_iff]
    refine and_congr_right fun hitem => ?_
    rw [(haccepted key item hitem).1, Except.ok.injEq]
  · rw [queryStore, hstore]
    exact Archive.run_eq_ok fun key item hitem => (haccepted key item hitem).2.1
  · rw [querySearch, hsearch]
    exact Archive.run_eq_ok fun key item hitem => (haccepted key item hitem).2.2

/-- A desk with a condition on a text, and one on a vocabulary in a rule of its own. -/
def floodDesk : Desk :=
  { Desk.new ((Schema.ofLayout {}).put (.controlled "topics" [])) {} with
    book := ⟨((∅ : Table Condition).insert "flood" (.ofParts "flood" "headline" .like "flood.*")).insert
        "news" (.ofParts "news" "topics" .notIn "sport, 12"),
      (∅ : Table Rule).insert "local" (.new default "local" "local" [⟨.ofList ["news"], ∅⟩]), ∅⟩ }

/-- A rule of its own clauses that demands the saved rule. -/
def floodRule : Rule := .new default "" "" [⟨.ofList ["flood"], .ofList ["local"]⟩]

/-- A tag of the vocabulary. -/
def floodTag : Json := .obj [("qcode", .str "weather"), ("scheme", .str "topics")]

/-- An item with the text and the tag. -/
def floodItem : Json := .obj [("headline", .str "A FLOOD.* warning"), ("subject", .arr [floodTag])]

theorem plain_default : ({} : FieldLayout).Plain :=
  ⟨⟨by decide, by decide, by simp [StoreQuery.IsPath]⟩,
    ⟨by decide, by decide, by simp [StoreQuery.IsPath]⟩,
    ⟨by decide, by decide, by simp [StoreQuery.IsPath]⟩, by decide⟩

theorem holds_eq_queries_flood :
    floodDesk.schema.layout.Plain ∧ floodDesk.ReadsPaths (some floodRule) ∧
      floodDesk.schema.layout.Tidy floodItem ∧ ∃ store search,
        floodDesk.storeQuery (some floodRule) = .ok store ∧
        floodDesk.searchQuery (some floodRule) = .ok search ∧
        StoreQuery.matcher store floodItem = .ok true ∧
        SearchQuery.matcher search floodItem = .ok true := by
  have hlayout : floodDesk.schema.layout.Plain := plain_default
  have hpaths : floodDesk.ReadsPaths (some floodRule) := readsPaths_of_saved (by decide +kernel)
  have htidy : floodDesk.schema.layout.Tidy floodItem := by
    refine ⟨rfl, fun tags htags tag htag vs hvs => ?_⟩
    have hitem : floodItem.get? floodDesk.schema.layout.tagArray = some (.arr [floodTag]) := rfl
    have hscheme : floodTag.get? floodDesk.schema.layout.schemeKey = some (.str "topics") := rfl
    obtain rfl := Json.arr.inj (Option.some.inj (hitem.symm.trans htags))
    obtain rfl := List.mem_singleton.1 htag
    cases hscheme.symm.trans hvs
  obtain ⟨store, hstore⟩ := exists_ok_of_isSome
    (show (floodDesk.storeQuery (some floodRule)).toOption.isSome = true by decide +kernel)
  obtain ⟨search, hsearch⟩ := exists_ok_of_isSome
    (show (floodDesk.searchQuery (some floodRule)).toOption.isSome = true by decide +kernel)
  have hholds : floodDesk.evaluated (some floodRule) floodItem = true := by decide +kernel
  obtain ⟨v, hv, hs, hq⟩ :=
    (holds_eq_queries hlayout hpaths hstore hsearch).1 floodItem htidy
  obtain rfl : v = true := by simpa [evaluated, hv, Except.toOption] using hholds
  exact ⟨hlayout, hpaths, htidy, store, search, hstore, hsearch, hs, hq⟩

end Desk

end Newswire
