import Newswire.Proofs.Query.Search

/-!
# Wildcard queries

A search index turns the pattern of a wildcard query into another pattern, character by character
and with escapes of its own, reads that one and looks for it.  What it decides is said here without
the second pattern: the whole text can be cut along the characters that the first one is written
with (`Text.Glob.Describes`).

* `SearchQuery.describes_open_iff`, `SearchQuery.describes_openStart_iff` : an escaped value between
  two `*`, or behind one, describes the texts that `like`, or `endsWith`, accepts.
* `SearchQuery.wildcard_describes_exactly` : **a wildcard query finds exactly the texts that its
  pattern describes**, and so escaping a value is right for every value.
-/

namespace Newswire

namespace SearchQuery

open Text Text.Glob

variable {doc body : Json} {path pattern value text : String} {ignoreCase : Bool} {kind : ValueKind}

/-- The steps of a wildcard pattern are found where the pattern describes the text. -/
theorem found_anchored_iff : (read pattern.toList).anchored.found ignoreCase text = true ↔
    Describes (Pattern.same ignoreCase) pattern.toList text.toList := by
  rw [found_anchored, follows_read_iff]

theorem matcher_wildcardBody (h : operandOf body = .ok ⟨path, .str pattern, ignoreCase⟩) :
    matcher (.obj [("wildcard", body)]) =
      .someValue path (Json.textIs ((read pattern.toList).anchored.found ignoreCase)) :=
  textMatcher_eq h (read?_wildcardPattern pattern)

theorem decides_wildcardBody (h : operandOf body = .ok ⟨path, .str pattern, ignoreCase⟩) :
    Decides (matcher (.obj [("wildcard", body)]) doc) (∃ text, .str text ∈ doc.valuesAt path ∧
      Describes (Pattern.same ignoreCase) pattern.toList text.toList) := by
  refine (decides_someValue path (matcher_wildcardBody h) rfl).congr ?_
  rw [List.any_eq_true]
  constructor
  · rintro ⟨v, hv, htext⟩
    cases v with
    | str text => exact ⟨text, hv, found_anchored_iff.1 htext⟩
    | null | bool | num | arr | obj => cases htext
  · rintro ⟨text, hv, htext⟩
    exact ⟨.str text, hv, found_anchored_iff.2 htext⟩

theorem accepts_text {op : Operator} (h : op.isPattern = true) :
    op.accepts kind value [.str text] = (op.steps value).found true text := by
  have hop : op ≠ .notIn := by rintro rfl; cases h
  rw [Operator.accepts_single hop]
  cases op with
  | like | startsWith | endsWith => rfl
  | eq | isIn | notIn => cases h

/-- The pattern of `like` describes what the operator accepts. -/
theorem describes_open_iff :
    Describes (Pattern.same true) ('*' :: (escape value.toList ++ ['*'])) text.toList ↔
      Operator.like.accepts kind value [.str text] = true := by
  rw [accepts_text rfl, ← found_globOf_open, found_anchored_iff, globOf, String.toList_ofList]
  rfl

/-- The pattern of `endsWith` describes what the operator accepts. -/
theorem describes_openStart_iff :
    Describes (Pattern.same true) ('*' :: escape value.toList) text.toList ↔
      Operator.endsWith.accepts kind value [.str text] = true := by
  rw [accepts_text rfl, ← found_globOf_openStart, found_anchored_iff, globOf, String.toList_ofList,
    if_neg Bool.false_ne_true, List.append_nil]

/-- **A wildcard query finds exactly the texts that its pattern describes**, in whichever of its
forms it is written and with or without regard to case: the pattern that is written for it is always
read back, and is found in these texts and no others.  So a value that is escaped and put between
two `*` finds the texts that `like` accepts, and behind one `*` those that `endsWith` accepts,
whatever characters it has. -/
theorem wildcard_describes_exactly
    (hbody : operandOf body = .ok ⟨path, .str pattern, ignoreCase⟩) (doc : Json) :
    (∃ steps, Pattern.read? (wildcardPattern pattern).toList = some steps ∧
      ∀ text, steps.found ignoreCase text = true ↔
        Describes (Pattern.same ignoreCase) pattern.toList text.toList) ∧
    Decides (matcher (.obj [("wildcard", body)]) doc) (∃ text, .str text ∈ doc.valuesAt path ∧
      Describes (Pattern.same ignoreCase) pattern.toList text.toList) ∧
    ∀ kind value text,
      (Describes (Pattern.same true) ('*' :: (escape value.toList ++ ['*'])) text.toList ↔
        Operator.like.accepts kind value [.str text] = true) ∧
      (Describes (Pattern.same true) ('*' :: escape value.toList) text.toList ↔
        Operator.endsWith.accepts kind value [.str text] = true) :=
  ⟨⟨_, read?_wildcardPattern pattern, fun _ => found_anchored_iff⟩, decides_wildcardBody hbody,
    fun _ _ _ => ⟨describes_open_iff, describes_openStart_iff⟩⟩

/-- The body of a query with all kinds of steps, in the form that leaves case alone. -/
def starredBody : Json := .obj [("headline", .obj [("value", .str "*\\*\\* fl?od*\\")])]

/-- An item whose headline has a line end and stars. -/
def starredItem : Json := .obj [("headline", .arr [.str "Rain", .str "a\nbig ** flood again"])]

theorem wildcard_describes_exactly_starredBody :
    operandOf starredBody = .ok ⟨"headline", .str "*\\*\\* fl?od*\\", false⟩ ∧
    (∃ steps, Pattern.read? (wildcardPattern "*\\*\\* fl?od*\\").toList = some steps ∧
      ∀ text, steps.found false text = true ↔
        Describes (Pattern.same false) "*\\*\\* fl?od*\\".toList text.toList) ∧
    Decides (matcher (.obj [("wildcard", starredBody)]) starredItem)
      (∃ text, .str text ∈ starredItem.valuesAt "headline" ∧
        Describes (Pattern.same false) "*\\*\\* fl?od*\\".toList text.toList) ∧
    ∀ kind value text,
      (Describes (Pattern.same true) ('*' :: (escape value.toList ++ ['*'])) text.toList ↔
        Operator.like.accepts kind value [.str text] = true) ∧
      (Describes (Pattern.same true) ('*' :: escape value.toList) text.toList ↔
        Operator.endsWith.accepts kind value [.str text] = true) :=
  ⟨rfl, wildcard_describes_exactly rfl starredItem⟩

/-- An item whose headline has one star where the pattern wants two. -/
def oneStarItem : Json := .obj [("headline", .str "a * flood")]

/-- The pattern that is written, the text with the line end that it finds, and one star for two. -/
example :
    wildcardPattern "*\\*\\* fl?od*\\" = "(?s)^.*\\*\\* fl.od.*\\z" ∧
      (matcher (.obj [("wildcard", starredBody)]) starredItem).toOption = some true ∧
      (matcher (.obj [("wildcard", starredBody)]) oneStarItem).toOption = some false := by
  decide +kernel

end SearchQuery

end Newswire
