import Mathlib.Data.List.Forall2
import Newswire.Rule.Operator

/-!
# Literal values in patterns

Where a pattern is found is said here by cutting the text: a literal value is found where a stretch
of the text is `Alike`, and a stretch that the pattern leaves open is a stretch of the text too.

* `Pattern.onward_iff`, `Pattern.foundFrom_iff` : what stands between here and a place further on.
* `Pattern.foundHere_literal_append_iff` : where a pattern that begins with a literal value is
  found.
* `Pattern.foundFrom_start_iff` : a pattern with an anchor in front is found at the start or not at
  all.
* `Operator.read?_pattern`, `read?_exactPattern` : the written patterns of the text operators are
  read back as the value between its anchors.
-/

namespace Newswire

namespace Text

/-- Two texts have the same length and agree character by character. -/
def Alike (same : Char → Char → Bool) (v t : List Char) : Prop :=
  List.Forall₂ (fun a b => same a b = true) v t

variable {same : Char → Char → Bool}

@[simp] theorem alike_nil_iff {t : List Char} : Alike same [] t ↔ t = [] :=
  List.forall₂_nil_left_iff

theorem alike_cons_iff {c : Char} {v t : List Char} :
    Alike same (c :: v) t ↔ ∃ x s, same c x = true ∧ Alike same v s ∧ t = x :: s :=
  List.forall₂_cons_left_iff

namespace Pattern

/-- A literal value at the front of a pattern is found here iff the text begins with a stretch
alike, and the rest of the pattern is found after it. -/
theorem foundHere_literal_append_iff (v : List Char) (steps : Pattern) (atStart : Bool)
    (t : List Char) :
    foundHere same (v.map .char ++ steps) atStart t = true ↔
      ∃ p r, t = p ++ r ∧ Alike same v p ∧
        foundHere same steps (atStart && v.isEmpty) r = true := by
  -- after one character the text is not at its start any more, hence the generalized `atStart`
  induction v generalizing atStart t with
  | nil => simp
  | cons c v ih =>
    cases t with
    | nil => simp [foundHere, alike_cons_iff]
    | cons x t =>
      simp only [List.map_cons, List.cons_append, foundHere, Bool.and_eq_true, ih,
        List.isEmpty_cons, Bool.and_false, Bool.false_and]
      constructor
      · rintro ⟨hc, p, r, rfl, hp, hr⟩
        exact ⟨x :: p, r, rfl, List.Forall₂.cons hc hp, hr⟩
      · rintro ⟨p, r, ht, hp, hr⟩
        obtain ⟨y, s, hc, hs, rfl⟩ := alike_cons_iff.1 hp
        obtain ⟨rfl, rfl⟩ := List.cons.inj ht
        exact ⟨hc, s, r, rfl, hs, hr⟩

/-- What is found further on is found behind a stretch of characters that pass. -/
theorem onward_iff {passes : Char → Bool} {isFound : Bool → List Char → Bool} {atStart : Bool}
    {t : List Char} : onward passes isFound atStart t = true ↔
      ∃ a r, t = a ++ r ∧ (∀ x ∈ a, passes x = true) ∧
        isFound (atStart && a.isEmpty) r = true := by
  induction t generalizing atStart with
  | nil =>
    constructor
    · intro h; exact ⟨[], [], rfl, by simp, by simpa [onward] using h⟩
    · rintro ⟨a, r, ht, -, h⟩
      obtain ⟨rfl, rfl⟩ := List.append_eq_nil_iff.1 ht.symm
      simpa [onward] using h
  | cons x t ih =>
    simp only [onward, Bool.or_eq_true, Bool.and_eq_true, ih, Bool.false_and]
    constructor
    · rintro (h | ⟨hx, a, r, rfl, ha, h⟩)
      · exact ⟨[], x :: t, rfl, by simp, by simpa using h⟩
      · exact ⟨x :: a, r, rfl, List.forall_mem_cons.2 ⟨hx, ha⟩, by simpa using h⟩
    · rintro ⟨a, r, ht, ha, h⟩
      -- what is passed over is nothing, or begins with the first character
      cases a with
      | nil =>
        obtain rfl : x :: t = r := ht
        exact Or.inl (by simpa using h)
      | cons y a =>
        obtain ⟨rfl, rfl⟩ := List.cons.inj ht
        obtain ⟨hx, ha⟩ := List.forall_mem_cons.1 ha
        exact Or.inr ⟨hx, a, r, rfl, ha, by simpa using h⟩

theorem foundFrom_iff (steps : Pattern) (atStart : Bool) (t : List Char) :
    foundFrom same steps atStart t = true ↔
      ∃ a r, t = a ++ r ∧ foundHere same steps (atStart && a.isEmpty) r = true := by
  rw [foundFrom, onward_iff]
  simp only [implies_true, true_and]

/-- A pattern that begins at the start of the text is found there or not at all. -/
theorem foundFrom_start_iff {steps : Pattern} {t : List Char} :
    foundFrom same (.start :: steps) true t = true ↔ foundHere same steps true t = true := by
  rw [foundFrom_iff]
  constructor
  · rintro ⟨a, r, rfl, h⟩
    simp only [foundHere, Bool.true_and, Bool.and_eq_true, List.isEmpty_iff] at h
    obtain ⟨rfl, h⟩ := h
    simpa using h
  · intro h
    exact ⟨[], t, rfl, by simpa [foundHere] using h⟩

theorem foundHere_finish_iff {atStart : Bool} {t : List Char} :
    foundHere same [.finish] atStart t = true ↔ t = [] := by
  simp [foundHere]

/-- A literal value is found in the texts with a stretch alike. -/
theorem foundFrom_literal_iff {v : List Char} {atStart : Bool} {t : List Char} :
    foundFrom same (v.map .char) atStart t = true ↔
      ∃ a p r, t = a ++ (p ++ r) ∧ Alike same v p := by
  have h := fun s r => @foundHere_literal_append_iff same v [] s r
  simp only [List.append_nil, foundHere, and_true] at h
  simp only [foundFrom_iff, h]
  constructor
  · rintro ⟨a, _, rfl, p, r, rfl, hp⟩; exact ⟨a, p, r, rfl, hp⟩
  · rintro ⟨a, p, r, rfl, hp⟩; exact ⟨a, p ++ r, rfl, p, r, rfl, hp⟩

theorem foundFrom_literal_finish_iff {v : List Char} {atStart : Bool} {t : List Char} :
    foundFrom same (v.map .char ++ [.finish]) atStart t = true ↔
      ∃ a p, t = a ++ p ∧ Alike same v p := by
  simp only [foundFrom_iff, foundHere_literal_append_iff, foundHere_finish_iff]
  constructor
  · rintro ⟨a, _, rfl, p, _, rfl, hp, rfl⟩; exact ⟨a, p, by simp, hp⟩
  · rintro ⟨a, p, rfl, hp⟩; exact ⟨a, p, rfl, p, [], by simp, hp, rfl⟩

end Pattern

end Text

/-! ### The written patterns of the text operators -/

open Text

/-- What a text operator looks for, as a pattern that is read. -/
def Operator.steps (op : Operator) (value : String) : Pattern :=
  match op with
  | .startsWith => .start :: value.toList.map .char
  | .endsWith => value.toList.map .char ++ [.finish]
  | _ => value.toList.map .char

theorem readFrom?_anchored (acrossLines : Bool) (v : List Char) :
    Pattern.readFrom? acrossLines (Pattern.escape v ++ ['\\', 'z']) =
      some (v.map .char ++ [.finish]) := by
  rw [Pattern.readFrom?_escape_append]
  rfl

theorem readFrom?_start (acrossLines : Bool) (rest : List Char) :
    Pattern.readFrom? acrossLines ('^' :: rest) =
      (Pattern.readFrom? acrossLines rest).map (.start :: ·) := by
  rw [Pattern.readFrom?_cons (by decide)]
  rfl

theorem Operator.read?_pattern {op : Operator} (h : op.isPattern = true) (value : String) :
    ∃ p, op.pattern? value = some p ∧ Pattern.read? p.toList = some (op.steps value) := by
  cases op with
  | like => exact ⟨_, rfl, by simp [Operator.steps, Pattern.read?, Pattern.readFrom?_escape]⟩
  | startsWith =>
    exact ⟨_, rfl, by
      simp [Operator.steps, Pattern.read?, readFrom?_start, Pattern.readFrom?_escape]⟩
  | endsWith => exact ⟨_, rfl, by simp [Operator.steps, Pattern.read?, readFrom?_anchored]⟩
  | eq | isIn | notIn => simp [Operator.isPattern] at h

theorem read?_exactPattern (value : String) :
    Pattern.read? (exactPattern value).toList =
      some (.start :: (value.toList.map .char ++ [.finish])) := by
  simp [exactPattern, Pattern.read?, readFrom?_start, readFrom?_anchored]

end Newswire
