import Newswire.Proofs.Query.Agreement

/-!
# Both kinds of queries on any document

Stored documents need not look like items: tags may be no objects, a code may be an array, and the
document itself may be one.  On such documents evaluation and queries can differ, but the two kinds
of queries do not: a store query looks at a tag by itself and a search query at a document in which
the tag stands alone, and either sees the same values.

* `Desk.Finds` : what the queries of a rule look for, said without either kind.
* `Desk.decides_storeQuery_finds`, `Desk.decides_searchQuery_finds` : either kind decides it, on
  every document.
* `Desk.queries_agree` : **the two have the same outcome on every document**, without a fault.
-/

namespace Newswire

open Rulebook

namespace Desk

variable {d : Desk} {r : Option Rule} {doc : Json}

/-- The queries of a rule find the document: some clause has all its conditions found, among the
values that queries look at, and all its parents.  Without a rule every document is found. -/
def Finds (d : Desk) (r : Option Rule) (doc : Json) : Prop :=
  ∀ rule ∈ r, d.book.Selects (fun c => c.found d.schema doc = true) rule

theorem decides_storeQuery_finds (hlayout : StoreQuery.Suits d.schema.layout)
    (hpaths : d.ReadsPaths r) {q : Json} (h : d.storeQuery r = .ok q) :
    Decides (StoreQuery.matcher q doc) (d.Finds r doc) := by
  refine decides_compile (StoreQuery.faithful doc) (fun rule hrule c hc q hq => ?_) h
  exact StoreQuery.decides_condition hlayout (hpaths rule hrule c hc) hq

theorem decides_searchQuery_finds (hlayout : SearchQuery.Suits d.schema.layout) {q : Json}
    (h : d.searchQuery r = .ok q) : Decides (SearchQuery.matcher q doc) (d.Finds r doc) := by
  refine decides_compile (SearchQuery.faithful doc) (fun rule _ c _ q hq => ?_) h
  exact SearchQuery.decides_condition hlayout hq

/-- **The two kinds of queries of a rule agree on every document**, whatever its shape: neither
finds a fault, and both find it or neither does. -/
theorem queries_agree (hstore : StoreQuery.Suits d.schema.layout)
    (hsearch : SearchQuery.Suits d.schema.layout) (hpaths : d.ReadsPaths r) {store search : Json}
    (hs : d.storeQuery r = .ok store) (hq : d.searchQuery r = .ok search) (doc : Json) :
    ∃ v, StoreQuery.matcher store doc = .ok v ∧ SearchQuery.matcher search doc = .ok v ∧
      (v = true ↔ d.Finds r doc) := by
  have hstored : Decides (StoreQuery.matcher store doc) (d.Finds r doc) :=
    decides_storeQuery_finds hstore hpaths hs
  exact hstored.agree_iff (decides_searchQuery_finds hsearch hq)

/-- Tags are found at a dotted path, and so are the vocabulary and the code in a tag. -/
def nestedLayout : FieldLayout :=
  { tagArray := "meta.tags", schemeKey := "list.id", codeKey := "code.value" }

theorem suits_nestedLayout :
    StoreQuery.Suits nestedLayout ∧ SearchQuery.Suits nestedLayout := by
  refine ⟨⟨?_, ?_, ?_, by decide⟩, by decide, by decide⟩ <;> unfold StoreQuery.IsPath <;>
    decide +kernel

/-- A desk with dotted keys, and a condition on a vocabulary in a rule of its own. -/
def nestedDesk : Desk :=
  { floodDesk with schema := (Schema.ofLayout nestedLayout).put (.controlled "topics" []) }

/-- A document that is an array, in which one tag is a number and another lists its vocabulary and
its code in arrays. -/
def nestedDocument : Json :=
  .arr [.obj [("headline", .arr [.str "A FLOOD.* warning", .null]),
    ("meta", .arr [.obj [("tags", .arr [.ofInt 3, .obj [("code", .arr [.obj [("value",
      .arr [.str "weather"])]]), ("list", .obj [("id", .arr [.str "places", .str "topics"])])]])]])]]

theorem queries_agree_nested : StoreQuery.Suits nestedDesk.schema.layout ∧
    SearchQuery.Suits nestedDesk.schema.layout ∧ nestedDesk.ReadsPaths (some floodRule) ∧
      ∃ store search, nestedDesk.storeQuery (some floodRule) = .ok store ∧
        nestedDesk.searchQuery (some floodRule) = .ok search ∧
        StoreQuery.matcher store nestedDocument = .ok true ∧
        SearchQuery.matcher search nestedDocument = .ok true := by
  obtain ⟨hs, hq⟩ :
      StoreQuery.Suits nestedDesk.schema.layout ∧ SearchQuery.Suits nestedDesk.schema.layout :=
    suits_nestedLayout
  have hpaths : nestedDesk.ReadsPaths (some floodRule) := readsPaths_of_saved (by decide +kernel)
  obtain ⟨store, hstore, hstored⟩ := exists_ok_of_bind
    (show ((nestedDesk.storeQuery (some floodRule)).toOption.bind fun q =>
      (StoreQuery.matcher q nestedDocument).toOption) = some true by decide +kernel)
  obtain ⟨search, hsearch⟩ := exists_ok_of_isSome
    (show (nestedDesk.searchQuery (some floodRule)).toOption.isSome = true by decide +kernel)
  obtain ⟨v, hv, hw, -⟩ := queries_agree hs hq hpaths hstore hsearch nestedDocument
  obtain rfl : v = true := Except.ok.inj (hv.symm.trans hstored)
  exact ⟨hs, hq, hpaths, store, search, hstore, hsearch, hv, hw⟩

end Desk

end Newswire
