import Newswire.Proofs.Text.Literal

/-!
# Texts without regard to case

The text operators write a value as a pattern and look for it without regard to case.  What they
find is said here without patterns: value and text are folded character by character, and then the
value is a part, the beginning, the end or the whole of the text.

* `Text.folded` : the characters of a text, each folded.
* `Text.alike_sameCaseless_iff` : stretches are alike without regard to case iff they are equal when
  folded.  Cutting a folded text is cutting the text (`Text.isInfix_map_iff` and its siblings).
* `Text.Pattern.found_literal_iff` and its siblings : where a literal value is found, with anchors.
* `Operator.finds_exactly` : **the pattern of every text operator, and that of equal texts, is found
  exactly in the texts that it is meant for**, whatever characters the value has.
-/

namespace Newswire

namespace Text

/-- The characters of a text, each in the place of all that differ from it by case. -/
def folded (s : String) : List Char := s.toList.map foldCase

theorem alike_sameCaseless_iff {v t : List Char} :
    Alike sameCaseless v t ↔ v.map foldCase = t.map foldCase := by
  rw [← List.forall₂_eq_eq_eq, List.forall₂_map_left_iff, List.forall₂_map_right_iff]
  simp only [Alike, sameCaseless_iff]

/-! ### Stretches of a folded text -/

section Stretches

variable {α β : Type} {f : α → β} {u : List β} {t : List α}

theorem isPrefix_map_iff : u <+: t.map f ↔ ∃ p r, t = p ++ r ∧ u = p.map f := by
  constructor
  · rintro ⟨r, h⟩
    obtain ⟨p, r, rfl, rfl, rfl⟩ := List.map_eq_append_iff.1 h.symm
    exact ⟨p, r, rfl, rfl⟩
  · rintro ⟨p, r, rfl, rfl⟩
    exact ⟨r.map f, List.map_append.symm⟩

theorem isSuffix_map_iff : u <:+ t.map f ↔ ∃ a p, t = a ++ p ∧ u = p.map f := by
  constructor
  · rintro ⟨a, h⟩
    obtain ⟨a, p, rfl, rfl, rfl⟩ := List.map_eq_append_iff.1 h.symm
    exact ⟨a, p, rfl, rfl⟩
  · rintro ⟨a, p, rfl, rfl⟩
    exact ⟨a.map f, List.map_append.symm⟩

theorem isInfix_map_iff : u <:+: t.map f ↔ ∃ a p r, t = a ++ (p ++ r) ∧ u = p.map f := by
  rw [List.infix_iff_prefix_suffix]
  constructor
  · rintro ⟨w, hprefix, hsuffix⟩
    obtain ⟨a, t, rfl, rfl⟩ := isSuffix_map_iff.1 hsuffix
    obtain ⟨p, r, rfl, hp⟩ := isPrefix_map_iff.1 hprefix
    exact ⟨a, p, r, rfl, hp⟩
  · rintro ⟨a, p, r, rfl, hp⟩
    exact ⟨(p ++ r).map f, isPrefix_map_iff.2 ⟨p, r, rfl, hp⟩,
      isSuffix_map_iff.2 ⟨a, p ++ r, rfl, rfl⟩⟩

end Stretches

/-! ### Literal values between anchors -/

namespace Pattern

variable {same : Char → Char → Bool} {steps : Pattern} {v t : List Char}

theorem foundFrom_start_literal_iff :
    foundFrom same (.start :: v.map .char) true t = true ↔ ∃ p r, t = p ++ r ∧ Alike same v p := by
  rw [foundFrom_start_iff, ← List.append_nil (v.map PatternStep.char), foundHere_literal_append_iff]
  simp only [foundHere, and_true]

theorem foundFrom_start_literal_finish_iff :
    foundFrom same (.start :: (v.map .char ++ [.finish])) true t = true ↔ Alike same v t := by
  rw [foundFrom_start_iff, foundHere_literal_append_iff]
  simp only [foundHere_finish_iff]
  constructor
  · rintro ⟨p, r, rfl, hp, rfl⟩
    rwa [List.append_nil]
  · intro h
    exact ⟨t, [], (List.append_nil t).symm, h, rfl⟩

variable {value text : String}

theorem found_eq (p : Pattern) (text : String) :
    p.found true text = foundFrom sameCaseless p true text.toList :=
  found_eq_foundFrom true p text

theorem found_literal_iff :
    found true (value.toList.map .char) text = true ↔ folded value <:+: folded text := by
  rw [found_eq, foundFrom_literal_iff, folded, folded, isInfix_map_iff]
  simp only [alike_sameCaseless_iff]

theorem found_start_literal_iff :
    found true (.start :: value.toList.map .char) text = true ↔ folded value <+: folded text := by
  rw [found_eq, foundFrom_start_literal_iff, folded, folded, isPrefix_map_iff]
  simp only [alike_sameCaseless_iff]

theorem found_literal_finish_iff :
    found true (value.toList.map .char ++ [.finish]) text = true ↔
      folded value <:+ folded text := by
  rw [found_eq, foundFrom_literal_finish_iff, folded, folded, isSuffix_map_iff]
  simp only [alike_sameCaseless_iff]

theorem found_start_literal_finish_iff :
    found true (.start :: (value.toList.map .char ++ [.finish])) text = true ↔
      folded value = folded text := by
  rw [found_eq, foundFrom_start_literal_finish_iff, alike_sameCaseless_iff, folded, folded]

end Pattern

end Text

/-! ### The written patterns -/

open Text

/-- The pattern that a text operator writes is read back, and is found where its steps are. -/
theorem Operator.exists_caselessFound (op : Operator) (h : op.isPattern = true)
    (value text : String) : ∃ pattern, op.pattern? value = some pattern ∧
      caselessFound pattern text = (op.steps value).found true text := by
  obtain ⟨pattern, hpattern, hread⟩ := read?_pattern h value
  refine ⟨pattern, hpattern, ?_⟩
  rw [caselessFound, hread]

/-- **What the text operators look for is found exactly where they say.**  Without regard to case,
`like` finds the texts that contain the value, `startsWith` those that begin and `endsWith` those
that end with it, and the pattern of equal texts finds those that equal it; no character of the
value has a meaning of its own, and the end of a text is its very end. -/
theorem Operator.finds_exactly (value text : String) :
    (∃ pattern, like.pattern? value = some pattern ∧
      (caselessFound pattern text = true ↔ folded value <:+: folded text)) ∧
    (∃ pattern, startsWith.pattern? value = some pattern ∧
      (caselessFound pattern text = true ↔ folded value <+: folded text)) ∧
    (∃ pattern, endsWith.pattern? value = some pattern ∧
      (caselessFound pattern text = true ↔ folded value <:+ folded text)) ∧
    (caselessFound (exactPattern value) text = true ↔ folded value = folded text) := by
  refine ⟨?_, ?_, ?_, ?_⟩
  · obtain ⟨pattern, hpattern, hfound⟩ := exists_caselessFound .like rfl value text
    exact ⟨pattern, hpattern, by rw [hfound]; exact Pattern.found_literal_iff⟩
  · obtain ⟨pattern, hpattern, hfound⟩ := exists_caselessFound .startsWith rfl value text
    exact ⟨pattern, hpattern, by rw [hfound]; exact Pattern.found_start_literal_iff⟩
  · obtain ⟨pattern, hpattern, hfound⟩ := exists_caselessFound .endsWith rfl value text
    exact ⟨pattern, hpattern, by rw [hfound]; exact Pattern.found_literal_finish_iff⟩
  · rw [caselessFound, read?_exactPattern]
    exact Pattern.found_start_literal_finish_iff

/-- The three forms of sigma are one letter, a dotted capital I is none of the other letters, and a
text with a newline at its end does not end before it. -/
example :
    folded "Σ" = folded "ς" ∧ folded "σ" = folded "ς" ∧ folded "İ" ≠ folded "i" ∧
      caselessFound "tor\\z" "creaTOR" = true ∧ caselessFound "tor\\z" "creator\n" = false := by
  decide +kernel

end Newswire
