import Newswire.Proofs.Query.Agreement

/-!
# The tags of a vocabulary

A condition on a vocabulary looks at the codes of the tags that belong to it, and each way to decide
finds these tags in its own way.  Evaluation follows the path of the tags to one place and compares
the one value under the key of the vocabulary.  Queries follow paths with fan-out, so they look into
arrays on the way to the tags, and a tag may list several vocabularies in an array.

* `FieldLayout.TagsAlike` : the item leaves nothing to fan-out, so that the same tags are found.
* `Condition.tags_agree` : the two kinds of queries agree on every item, and **evaluation agrees with
  them on items whose tags are found alike**, be they objects or not.
* `Condition.listed_vocabulary_divides` : a tag that lists its vocabulary in an array counts for
  queries and not for evaluation.
-/

namespace Newswire

namespace FieldLayout

/-- Evaluation and queries find the same tags of a vocabulary in the item. -/
structure TagsAlike (layout : FieldLayout) (scheme : String) (item : Json) : Prop where
  /-- The vocabulary stands under a key and not at the end of a path. -/
  keyed : '.' ∉ layout.schemeKey.toList
  /-- The path of the tags is not one key after a dot. -/
  fronted : ∀ key, Path.read layout.tagArray ≠ ["", key]
  /-- No array stands on the way to the tags. -/
  direct : item.isDirect (Path.read layout.tagArray) = true
  /-- No tag lists the vocabulary in an array. -/
  unlisted : ∀ tags, item.fieldAt layout.tagArray = some (.arr tags) → ∀ tag ∈ tags, ∀ vs,
    tag.get? layout.schemeKey = some (.arr vs) → .str scheme ∉ vs

end FieldLayout

namespace Condition

variable {schema : Schema} {c : Condition} {scheme : String} {item : Json}

/-- A condition on a vocabulary holds of the item if queries find it, and not otherwise. -/
theorem holds_eq_found (hfield : schema.resolve c.field = .vocabulary scheme)
    (hkey : IsKey schema.layout.schemeKey) (halike : schema.layout.TagsAlike scheme item) :
    c.holds schema item = c.found schema item := by
  have hplace := Json.rawValuesAt_eq_toList halike.fronted halike.direct
  simp only [holds, found, hfield, FieldKind.queried_vocabulary hkey hplace halike.unlisted]

/-- **The ways to decide a condition on a vocabulary.**  On every item, whatever its shape, the two
kinds of queries agree, and evaluation agrees with them where the tags are found alike. -/
theorem tags_agree (hfield : schema.resolve c.field = .vocabulary scheme)
    (hs : StoreQuery.Suits schema.layout) (hq : SearchQuery.Suits schema.layout)
    {store search : Json}
    (hstore : StoreQuery.condition schema.layout (schema.resolve c.field) c = .ok store)
    (hsearch : SearchQuery.condition schema.layout (schema.resolve c.field) c = .ok search)
    (item : Json) :
    ∃ v, StoreQuery.matcher store item = .ok v ∧ SearchQuery.matcher search item = .ok v ∧
      (schema.layout.TagsAlike scheme item → c.holds schema item = v) := by
  have hpath : ∀ path values,
      (schema.resolve c.field).path? schema.layout = some (path, values) →
        StoreQuery.IsPath path := by
    intro path values hpath
    rw [hfield] at hpath
    cases hpath
  have hstored : Decides (StoreQuery.matcher store item) (c.found schema item = true) :=
    StoreQuery.decides_condition hs hpath hstore
  have hsearched : Decides (SearchQuery.matcher search item) (c.found schema item = true) :=
    SearchQuery.decides_condition hq hsearch
  obtain ⟨v, hv, hw, hfound⟩ := hstored.agree_iff hsearched
  refine ⟨v, hv, hw, fun halike => ?_⟩
  have hkey : IsKey schema.layout.schemeKey := ⟨hq.schemeKey, halike.keyed, hs.schemeKey⟩
  rw [holds_eq_found hfield hkey halike]
  exact (Bool.eq_iff_iff.2 hfound).symm

/-- A vocabulary whose tags are found at a dotted path. -/
def deepSchema : Schema :=
  (Schema.ofLayout { tagArray := "meta.tags" }).put (.controlled "topics" [])

/-- No topic is a sport. -/
def noSport : Condition := .ofParts "no sport" "topics" .notIn "sport, 12"

/-- Of three tags one names the vocabulary; the others have an array and a number in its place. -/
def oddTags : List Json :=
  [.obj [("qcode", .str "sport"), ("scheme", .arr [.str "places"])],
    .obj [("qcode", .arr [.str "weather"]), ("scheme", .str "topics")],
    .obj [("qcode", .str "sport"), ("scheme", .ofInt 7)]]

/-- An item with these tags. -/
def oddlyTaggedItem : Json := .obj [("meta", .obj [("tags", .arr oddTags)])]

theorem read_tagArray_deepSchema :
    Path.read deepSchema.layout.tagArray = ["meta", "tags"] := by decide +kernel

theorem tagsAlike_oddlyTaggedItem : deepSchema.layout.TagsAlike "topics" oddlyTaggedItem where
  keyed := by decide
  fronted key h := by simp [read_tagArray_deepSchema] at h
  direct := by decide +kernel
  unlisted tags htags tag htag vs hvs := by
    have hfield : oddlyTaggedItem.fieldAt deepSchema.layout.tagArray = some (.arr oddTags) := by
      simp [Json.fieldAt, read_tagArray_deepSchema, oddlyTaggedItem, Json.child?, Json.get?]
    obtain rfl := Json.arr.inj (Option.some.inj (hfield.symm.trans htags))
    have hkey : deepSchema.layout.schemeKey = "scheme" := rfl
    rw [hkey] at hvs
    simp only [oddTags, List.mem_cons, List.not_mem_nil, or_false] at htag
    rcases htag with rfl | rfl | rfl <;> simp [Json.get?, List.lookup_cons, Json.ofInt] at hvs
    simp [← hvs]

theorem tags_agree_oddlyTagged :
    deepSchema.resolve noSport.field = .vocabulary "topics" ∧
      deepSchema.layout.TagsAlike "topics" oddlyTaggedItem ∧ ∃ store search,
        StoreQuery.condition deepSchema.layout (deepSchema.resolve noSport.field) noSport =
          .ok store ∧
        SearchQuery.condition deepSchema.layout (deepSchema.resolve noSport.field) noSport =
          .ok search ∧
        StoreQuery.matcher store oddlyTaggedItem = .ok true ∧
        SearchQuery.matcher search oddlyTaggedItem = .ok true ∧
        noSport.holds deepSchema oddlyTaggedItem = true := by
  have hfield : deepSchema.resolve noSport.field = .vocabulary "topics" := by decide +kernel
  have hs : StoreQuery.Suits deepSchema.layout := by
    refine ⟨?_, ?_, ?_, by decide⟩ <;> unfold StoreQuery.IsPath <;> decide +kernel
  have hq : SearchQuery.Suits deepSchema.layout := ⟨by decide, by decide⟩
  obtain ⟨store, hstore⟩ := exists_ok_of_isSome (show (StoreQuery.condition
    deepSchema.layout (deepSchema.resolve noSport.field) noSport).toOption.isSome = true by
      decide +kernel)
  obtain ⟨search, hsearch⟩ := exists_ok_of_isSome (show (SearchQuery.condition
    deepSchema.layout (deepSchema.resolve noSport.field) noSport).toOption.isSome = true by
      decide +kernel)
  have hholds : noSport.holds deepSchema oddlyTaggedItem = true := by decide +kernel
  obtain ⟨v, hv, hw, halike⟩ :=
    tags_agree hfield hs hq hstore hsearch oddlyTaggedItem
  obtain rfl : v = true := (halike tagsAlike_oddlyTaggedItem).symm.trans hholds
  exact ⟨hfield, tagsAlike_oddlyTaggedItem, store, search, hstore, hsearch, hv, hw, hholds⟩

/-! ### A vocabulary in an array -/

/-- Some topic is the weather. -/
def isWeather : Condition := .ofParts "weather" "topics" .eq "weather"

/-- The vocabulary of the one tag stands in an array. -/
def listingItem : Json :=
  .obj [("subject", .arr [.obj [("qcode", .str "weather"), ("scheme", .arr [.str "topics"])]])]

/-- **A tag that lists its vocabulary counts for both kinds of queries, and not for evaluation.** -/
theorem listed_vocabulary_divides :
    let schema := (Schema.ofLayout {}).put (.controlled "topics" [])
    ∃ store search,
      StoreQuery.condition schema.layout (schema.resolve isWeather.field) isWeather = .ok store ∧
      SearchQuery.condition schema.layout (schema.resolve isWeather.field) isWeather =
        .ok search ∧
      StoreQuery.matcher store listingItem = .ok true ∧
      SearchQuery.matcher search listingItem = .ok true ∧
      isWeather.holds schema listingItem = false := by
  intro schema
  obtain ⟨store, hstore, hstored⟩ := exists_ok_of_bind (show
    ((StoreQuery.condition schema.layout (schema.resolve isWeather.field) isWeather).toOption.bind
      fun q => (StoreQuery.matcher q listingItem).toOption) = some true by decide +kernel)
  obtain ⟨search, hsearch, hsearched⟩ := exists_ok_of_bind (show
    ((SearchQuery.condition schema.layout (schema.resolve isWeather.field) isWeather).toOption.bind
      fun q => (SearchQuery.matcher q listingItem).toOption) = some true by decide +kernel)
  have hholds : isWeather.holds schema listingItem = false := by decide +kernel
  exact ⟨store, search, hstore, hsearch, hstored, hsearched, hholds⟩

end Condition

end Newswire
