import Mathlib.Data.List.DropRight
import Newswire.Proofs.Number.Reading
import Newswire.Query.Target

/-!
# The value of a condition as a number

Evaluation and queries read the numbers in a condition's value at different times and in different
ways.  They find the same ones:

* `Text.trimChars_trimChars` : what is trimmed is not trimmed further, so an entry of a list value
  (`trimChars_of_mem_listEntries`) may be trimmed again before it is read.
* `exists_double_of_numberOf?`, `numberOf?_eq_none_iff` : a query's number (`numberOf?`) exists iff
  the value is a double, and is near the same numbers.
-/

namespace Newswire

namespace Text

theorem trimChars_eq (cs : List Char) :
    trimChars cs = (cs.dropWhile isBlank).rdropWhile isBlank := rfl

/-- Trimming text that is trimmed changes nothing. -/
theorem trimChars_trimChars (cs : List Char) : trimChars (trimChars cs) = trimChars cs := by
  set front := cs.dropWhile isBlank with hfront
  -- the trimmed text begins as `front` does, unless nothing is left of it
  have hkeep : (front.rdropWhile isBlank).dropWhile isBlank = front.rdropWhile isBlank := by
    refine List.dropWhile_eq_self_iff.2 fun hl => ?_
    have hpre := List.rdropWhile_prefix isBlank front
    have hlen : 0 < front.length := Nat.lt_of_lt_of_le hl hpre.length_le
    rw [hpre.getElem hl]
    exact List.dropWhile_get_zero_not isBlank cs hlen
  rw [trimChars_eq cs, ← hfront, trimChars_eq, hkeep, List.rdropWhile_idempotent]

end Text

/-- An entry of a list value has no blanks around it. -/
theorem trimChars_of_mem_listEntries {value e : String} (h : e ∈ listEntries value) :
    Text.trimChars e.toList = e.toList := by
  obtain ⟨hmem, -⟩ := List.mem_filter.1 h
  obtain ⟨piece, -, rfl⟩ := List.mem_map.1 hmem
  simp only [Text.trim, String.toList_ofList, Text.trimChars_trimChars]

/-- The number of a query is near the same numbers as the double that evaluation reads. -/
theorem exists_double_of_numberOf? {value : String} {n : Number} (h : numberOf? value = some n) :
    ∃ d, Double.read? (Text.trimChars value.toList) = some d ∧
      ∀ m : Number, m.near n = m.toDouble.near d := by
  unfold numberOf? at h
  simp only at h
  split at h
  · next i hi =>
    obtain ⟨d, hd, hsigned⟩ := Double.read?_of_readSigned? hi
    obtain rfl := Option.some.inj h
    exact ⟨d, hd, fun m => (Double.near_congr hsigned m.toDouble).symm⟩
  · obtain ⟨d, hd, rfl⟩ := Option.map_eq_some_iff.1 h
    exact ⟨d, hd, fun m => rfl⟩

theorem numberOf?_eq_none_iff {value : String} :
    numberOf? value = none ↔ Double.read? (Text.trimChars value.toList) = none := by
  constructor
  · intro h
    unfold numberOf? at h
    simp only at h
    split at h
    · exact absurd h (Option.some_ne_none _)
    · exact Option.map_eq_none_iff.1 h
  · intro h
    cases hn : numberOf? value with
    | none => rfl
    | some n =>
      obtain ⟨d, hd, -⟩ := exists_double_of_numberOf? hn
      rw [hd] at h
      exact absurd h (Option.some_ne_none _)

end Newswire
