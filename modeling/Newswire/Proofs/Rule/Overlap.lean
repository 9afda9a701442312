import Newswire.Desk.Basic
import Newswire.Proofs.Query.Decision
import Newswire.Proofs.Rule.Comparison
import Newswire.Proofs.Text.Caseless

/-!
# Conditions that hold together

Whether two conditions may select common items is told from what they list, without any item
(`Condition.overlaps`).  This is compared here with the values on which both conditions hold.

* `Condition.overlaps_comm` : which condition is asked about and which is stored does not matter.
* `Condition.takes` : the condition holds of a field with a single value.
* `Denotes` : an entry stands for a value.  A list takes exactly what its entries denote
  (`Condition.takes_isIn_iff`, `Condition.takes_notIn_iff`), and `eq` takes what its value denotes
  and sometimes more (`Condition.takes_eq_iff`).
* `Condition.overlaps_iff_common_text` : **where texts are compared, conditions overlap exactly if
  they hold of a common text**, unless both are `eq`.
* `Condition.overlaps_of_common_value` : **a common value of any sort is missed exactly if it
  strays** from the kind of the field, as long as it is not a number that is near to two others which
  are not near each other.
* `Condition.breaking_missed` : a condition that holds of a value and does not overlap with itself.
-/

namespace Newswire

open Text

/-! ### Values that are the same -/

/-- The double that a value denotes. -/
def doubleOf? (value : String) : Option Double := Double.read? (trimChars value.toList)

theorem caselessEqual_iff {a b : String} : caselessEqual a b = true ↔ folded a = folded b := by
  rw [caselessEqual_eq]
  exact Pattern.found_start_literal_finish_iff

theorem sameValue_text_iff {a b : String} :
    sameValue .text a b = true ↔ folded a = folded b := caselessEqual_iff

theorem sameValue_number_iff {a b : String} : sameValue .number a b = true ↔
    ∃ x y, doubleOf? a = some x ∧ doubleOf? b = some y ∧ x.near y = true := by
  simp only [sameValue, doubleOf?]
  cases Double.read? (trimChars a.toList) with
  | none => simp
  | some x => cases Double.read? (trimChars b.toList) <;> simp

theorem sameValue_comm (kind : ValueKind) (a b : String) :
    sameValue kind a b = sameValue kind b a := by
  rw [Bool.eq_iff_iff]
  cases kind with
  | text => rw [sameValue_text_iff, sameValue_text_iff, eq_comm]
  | number =>
    rw [sameValue_number_iff, sameValue_number_iff]
    constructor
    · rintro ⟨x, y, hx, hy, h⟩; exact ⟨y, x, hy, hx, Double.near_comm x y ▸ h⟩
    · rintro ⟨x, y, hx, hy, h⟩; exact ⟨y, x, hy, hx, Double.near_comm x y ▸ h⟩

theorem containsValue_iff {kind : ValueKind} {entries : List String} {value : String} :
    containsValue kind entries value = true ↔ ∃ e ∈ entries, sameValue kind e value = true :=
  List.any_eq_true

namespace Condition

variable {q s c : Condition} {kind : ValueKind} {v : Json}

/-- **It does not matter which of two conditions is asked about and which is stored.** -/
theorem overlaps_comm (kind : ValueKind) (a b : Condition) :
    a.overlaps kind b = b.overlaps kind a := by
  have hfield : (a.field == b.field) = (b.field == a.field) := Bool.beq_comm
  have hop : (a.operator == b.operator) = (b.operator == a.operator) := Bool.beq_comm
  have hlists : a.values.any (containsValue kind b.values) =
      b.values.any (containsValue kind a.values) := by
    rw [Bool.eq_iff_iff]
    simp only [List.any_eq_true, containsValue_iff]
    constructor
    · rintro ⟨w, hw, e, he, h⟩; exact ⟨e, he, w, hw, sameValue_comm kind e w ▸ h⟩
    · rintro ⟨e, he, w, hw, h⟩; exact ⟨w, hw, e, he, sameValue_comm kind e w ▸ h⟩
  unfold overlaps
  rw [hfield, hop, Bool.or_comm a.operator.isPattern, sameValue_comm .text a.value]
  cases a.operator == .notIn <;> cases b.operator == .notIn <;> simp only [hlists]

/-- The condition holds of a field with a single value. -/
def takes (c : Condition) (kind : ValueKind) (v : Json) : Bool :=
  c.operator.accepts kind c.value [v]

/-- Two conditions on one field, neither of which looks for something inside a text. -/
structure Comparable (q s : Condition) : Prop where
  /-- They are on one field. -/
  field : q.field = s.field
  /-- The first compares whole values. -/
  left : q.operator.isPattern = false
  /-- So does the second. -/
  right : s.operator.isPattern = false

theorem Comparable.symm (h : q.Comparable s) : s.Comparable q := ⟨h.field.symm, h.right, h.left⟩

theorem Comparable.overlaps_eq (h : q.Comparable s) : q.overlaps kind s =
    match q.operator == .notIn, s.operator == .notIn with
    | false, false => q.values.any (containsValue kind s.values)
    | false, true => q.values.any fun v => !containsValue kind s.values v
    | true, false => s.values.any fun v => !containsValue kind q.values v
    | true, true => true := by
  unfold overlaps
  rw [h.field, h.left, h.right, beq_self_eq_true]
  rfl

theorem Comparable.overlaps_iff_same (h : q.Comparable s) (hq : q.operator ≠ .notIn)
    (hs : s.operator ≠ .notIn) : q.overlaps kind s = true ↔
      ∃ w ∈ q.values, ∃ e ∈ s.values, sameValue kind e w = true := by
  rw [h.overlaps_eq, beq_false_of_ne hq, beq_false_of_ne hs]
  simp only [List.any_eq_true, containsValue_iff]

/-- Of a condition that names what it takes and one that names what it refuses, something is named
by the first and not by the second. -/
theorem Comparable.overlaps_iff_unlisted (h : q.Comparable s) (hq : q.operator ≠ .notIn)
    (hs : s.operator = .notIn) : q.overlaps kind s = true ↔
      ∃ w ∈ q.values, ¬∃ e ∈ s.values, sameValue kind e w = true := by
  rw [h.overlaps_eq, beq_false_of_ne hq, hs, beq_self_eq_true]
  simp only [List.any_eq_true, Bool.not_eq_true', ← Bool.not_eq_true, containsValue_iff]

theorem Comparable.overlaps_of_notIn (h : q.Comparable s) (hq : q.operator = .notIn)
    (hs : s.operator = .notIn) : q.overlaps kind s = true := by
  rw [h.overlaps_eq, hq, hs, beq_self_eq_true]

end Condition

/-! ### What an entry stands for -/

/-- The values of the kind that the lists of a field are compared as. -/
def ValueKind.fits : ValueKind → Json → Bool
  | .text, .str _ => true
  | .number, .num _ => true
  | _, _ => false

/-- An entry stands for a value: for a text that differs from it in case at most, or for a number
that is near the one that it writes. -/
def Denotes (kind : ValueKind) (e : String) (v : Json) : Prop :=
  match kind, v with
  | .text, .str t => folded e = folded t
  | .number, .num n => ∃ d, doubleOf? e = some d ∧ n.toDouble.near d = true
  | _, _ => False

variable {kind : ValueKind} {v : Json}

theorem Denotes.fits {e : String} (h : Denotes kind e v) : kind.fits v = true := by
  cases kind <;> cases v <;> first | rfl | exact h.elim

theorem exists_numberOf?_near_iff {e : String} {m : Number} :
    (∃ n, numberOf? e = some n ∧ m.near n = true) ↔
      ∃ d, doubleOf? e = some d ∧ m.toDouble.near d = true := by
  cases hn : numberOf? e with
  | none =>
    have hd : doubleOf? e = none := numberOf?_eq_none_iff.1 hn
    simp [hd]
  | some n =>
    obtain ⟨d, hd, hnear⟩ := exists_double_of_numberOf? hn
    have hd' : doubleOf? e = some d := hd
    simp [hd', hnear]

theorem inList_iff_denotes {value : String} :
    inList kind value v = true ↔ ∃ e ∈ listEntries value, Denotes kind e v := by
  cases kind with
  | text => cases v <;> simp [inList, Json.textIs, Denotes, caselessEqual_iff]
  | number =>
    have hnumbers : inList .number value v = true ↔
        ∃ e ∈ listEntries value, ∃ n, numberOf? e = some n ∧ v.sameScalar (.num n) = true := by
      simp only [inList, List.any_eq_true, List.mem_filterMap]
      constructor
      · rintro ⟨n, ⟨e, he, hn⟩, h⟩; exact ⟨e, he, n, hn, h⟩
      · rintro ⟨e, he, n, hn, h⟩; exact ⟨n, ⟨e, he, hn⟩, h⟩
    rw [hnumbers]
    cases v with
    | num m => exact exists_congr fun e => and_congr_right fun _ => exists_numberOf?_near_iff
    | null | bool | str | arr | obj => simp [Json.sameScalar, Denotes]

namespace Condition

variable {q s c : Condition}

theorem operator_cases (h : c.operator.isPattern = false) :
    c.operator = .eq ∨ c.operator = .isIn ∨ c.operator = .notIn := by
  cases hop : c.operator <;> simp_all [Operator.isPattern]

theorem eq_or_isIn (h : c.operator.isPattern = false) (hn : c.operator ≠ .notIn) :
    c.operator = .eq ∨ c.operator = .isIn := by
  simpa [hn] using operator_cases h

theorem values_of_eq (h : c.operator = .eq) : c.values = [c.value] := by
  rw [values, h]
  rfl

theorem values_of_isList (h : c.operator.isList = true) : c.values = listEntries c.value :=
  if_pos h

theorem takes_isIn_iff (h : c.operator = .isIn) :
    c.takes kind v = true ↔ ∃ e ∈ c.values, Denotes kind e v := by
  rw [takes, h, Operator.accepts_single (by decide), values_of_isList (by rw [h]; rfl)]
  exact inList_iff_denotes

theorem takes_notIn_iff (h : c.operator = .notIn) :
    c.takes kind v = true ↔ v.isScalar = true ∧ ¬∃ e ∈ c.values, Denotes kind e v := by
  rw [takes, h, Operator.accepts_single_notIn, values_of_isList (by rw [h]; rfl),
    ← inList_iff_denotes]
  simp

theorem takes_eq_iff (h : c.operator = .eq) : c.takes kind v = true ↔
    v = .str c.value ∨ ∃ n d, v = .num n ∧ doubleOf? c.value = some d ∧
      n.toDouble.near d = true := by
  rw [takes, h, Operator.accepts_single (by decide), Operator.admits]
  cases v with
  | str t => simp [equalsValue]
  | num n =>
    simp only [equalsValue, doubleOf?]
    cases Double.read? (trimChars c.value.toList) <;> simp
  | null | bool | arr | obj => simp [equalsValue]

/-- What a condition takes of the kind of the field is denoted by something that it names. -/
theorem exists_denotes (hp : c.operator.isPattern = false) (hn : c.operator ≠ .notIn)
    (hfit : kind.fits v = true) (h : c.takes kind v = true) : ∃ e ∈ c.values, Denotes kind e v := by
  rcases eq_or_isIn hp hn with heq | hin
  · rw [values_of_eq heq]
    refine ⟨c.value, List.mem_singleton_self _, ?_⟩
    rcases (takes_eq_iff heq).1 h with rfl | ⟨n, d, rfl, hd⟩
    · cases kind with
      | text => rfl
      | number => cases hfit
    · cases kind with
      | text => cases hfit
      | number => exact ⟨d, hd⟩
  · exact (takes_isIn_iff hin).1 h

theorem takes_text_of_mem (hp : c.operator.isPattern = false) (hn : c.operator ≠ .notIn)
    {w : String} (h : w ∈ c.values) : c.takes .text (.str w) = true := by
  rcases eq_or_isIn hp hn with heq | hin
  · rw [values_of_eq heq, List.mem_singleton] at h
    exact (takes_eq_iff heq).2 (Or.inl (congrArg Json.str h))
  · exact (takes_isIn_iff hin).2 ⟨w, h, rfl⟩

/-! ### Common values of the kind of the field -/

/-- Of the three facts that something named by `q` denotes the value, that something named by `s`
does, and that the two are the same, no two hold without the third. -/
def Coherent (kind : ValueKind) (v : Json) (q s : Condition) : Prop :=
  ∀ w ∈ q.values, ∀ e ∈ s.values,
    (Denotes kind w v → Denotes kind e v → sameValue kind e w = true) ∧
    (Denotes kind w v → sameValue kind e w = true → Denotes kind e v) ∧
    (Denotes kind e v → sameValue kind e w = true → Denotes kind w v)

theorem Coherent.symm (h : Coherent kind v q s) : Coherent kind v s q := by
  intro e he w hw
  obtain ⟨hsame, hright, hleft⟩ := h w hw e he
  rw [sameValue_comm]
  exact ⟨fun hde hdw => hsame hdw hde, hleft, hright⟩

/-- A value that one condition names and the other refuses belongs to an overlap. -/
theorem Comparable.overlaps_of_refused (h : q.Comparable s) (hcoherent : Coherent kind v q s)
    (hfit : kind.fits v = true) (hn : q.operator ≠ .notIn) (hs : s.operator = .notIn)
    (hqv : q.takes kind v = true) (hsv : s.takes kind v = true) : q.overlaps kind s = true := by
  obtain ⟨w, hw, hdw⟩ := exists_denotes h.left hn hfit hqv
  obtain ⟨-, hnone⟩ := (takes_notIn_iff hs).1 hsv
  refine (h.overlaps_iff_unlisted hn hs).2 ⟨w, hw, ?_⟩
  rintro ⟨e, he, hsame⟩
  exact hnone ⟨e, he, (hcoherent w hw e he).2.1 hdw hsame⟩

theorem Comparable.overlaps_of_fits (h : q.Comparable s) (hcoherent : Coherent kind v q s)
    (hfit : kind.fits v = true) (hqv : q.takes kind v = true) (hsv : s.takes kind v = true) :
    q.overlaps kind s = true := by
  by_cases hq : q.operator = .notIn
  · by_cases hs : s.operator = .notIn
    · exact h.overlaps_of_notIn hq hs
    · rw [overlaps_comm]
      exact h.symm.overlaps_of_refused hcoherent.symm hfit hs hq hsv hqv
  · by_cases hs : s.operator = .notIn
    · exact h.overlaps_of_refused hcoherent hfit hq hs hqv hsv
    · -- both name what they take, and what they name denotes the same value
      obtain ⟨w, hw, hdw⟩ := exists_denotes h.left hq hfit hqv
      obtain ⟨e, he, hde⟩ := exists_denotes h.right hs hfit hsv
      exact (h.overlaps_iff_same hq hs).2 ⟨w, hw, e, he, (hcoherent w hw e he).1 hdw hde⟩

theorem coherent_text (t : String) : Coherent .text (.str t) q s := by
  intro w _ e _
  rw [sameValue_text_iff]
  exact ⟨fun hw he => he.trans hw.symm, fun hw hsame => hsame.trans hw,
    fun he hsame => hsame.symm.trans he⟩

/-! ### Texts -/

theorem takes_empty (h : c.operator = .notIn) : c.takes .text (.str "") = true := by
  refine (takes_notIn_iff h).2 ⟨rfl, ?_⟩
  rintro ⟨e, he, hempty⟩
  rw [values_of_isList (by rw [h]; rfl)] at he
  have hnonempty : e.isEmpty = false := by simpa using (List.mem_filter.1 he).2
  have hchars : e.toList = [] := List.map_eq_nil_iff.1 hempty
  rw [String.toList_eq_nil_iff.1 hchars] at hnonempty
  cases hnonempty

/-- Something that is named by one condition and not by the other is a common text. -/
theorem Comparable.exists_common_of_unlisted (h : q.Comparable s) (hn : q.operator ≠ .notIn)
    (hs : s.operator = .notIn) (hoverlaps : q.overlaps .text s = true) :
    ∃ t : String, q.takes .text (.str t) = true ∧ s.takes .text (.str t) = true := by
  obtain ⟨w, hw, hnone⟩ := (h.overlaps_iff_unlisted hn hs).1 hoverlaps
  refine ⟨w, takes_text_of_mem h.left hn hw, (takes_notIn_iff hs).2 ⟨rfl, ?_⟩⟩
  rintro ⟨e, he, hsame⟩
  exact hnone ⟨e, he, sameValue_text_iff.2 hsame⟩

/-- Something that both conditions name is a common text, as long as one of the two takes it in any
case. -/
theorem Comparable.exists_common_of_same (h : q.Comparable s) (hq : q.operator ≠ .notIn)
    (hs : s.operator = .isIn) (hoverlaps : q.overlaps .text s = true) :
    ∃ t : String, q.takes .text (.str t) = true ∧ s.takes .text (.str t) = true := by
  have hn : s.operator ≠ .notIn := by rw [hs]; decide
  obtain ⟨w, hw, e, he, hsame⟩ := (h.overlaps_iff_same hq hn).1 hoverlaps
  exact ⟨w, takes_text_of_mem h.left hq hw,
    (takes_isIn_iff hs).2 ⟨e, he, sameValue_text_iff.1 hsame⟩⟩

/-- **Where texts are compared, conditions overlap exactly if they hold of a common text.**  Only
two `eq` are different: they overlap also when their values differ in case. -/
theorem overlaps_iff_common_text (h : q.Comparable s)
    (hexact : ¬(q.operator = .eq ∧ s.operator = .eq)) :
    q.overlaps .text s = true ↔
      ∃ t : String, q.takes .text (.str t) = true ∧ s.takes .text (.str t) = true := by
  constructor
  · intro hoverlaps
    by_cases hq : q.operator = .notIn
    · by_cases hs : s.operator = .notIn
      · exact ⟨"", takes_empty hq, takes_empty hs⟩
      · rw [overlaps_comm] at hoverlaps
        exact (h.symm.exists_common_of_unlisted hs hq hoverlaps).imp fun _ => And.symm
    · by_cases hs : s.operator = .notIn
      · exact h.exists_common_of_unlisted hq hs hoverlaps
      · -- one of the two is a list, which takes what the other names in any case
        rcases eq_or_isIn h.right hs with hseq | hsin
        · have hqin : q.operator = .isIn :=
            (eq_or_isIn h.left hq).resolve_left fun hqeq => hexact ⟨hqeq, hseq⟩
          rw [overlaps_comm] at hoverlaps
          exact (h.symm.exists_common_of_same hs hqin hoverlaps).imp fun _ => And.symm
        · exact h.exists_common_of_same hq hsin hoverlaps
  · rintro ⟨t, hqt, hst⟩
    exact h.overlaps_of_fits (coherent_text t) rfl hqt hst

/-- Two categories, written in either case. -/
def categories : Condition := .ofParts "ours" "anpa_category" .isIn "a, B"

/-- All categories but one of the two. -/
def otherCategories : Condition := .ofParts "theirs" "anpa_category" .notIn "b"

theorem overlaps_iff_common_text_categories :
    categories.Comparable otherCategories ∧
    ¬(categories.operator = .eq ∧ otherCategories.operator = .eq) ∧
    categories.takes .text (.str "A") = true ∧ otherCategories.takes .text (.str "A") = true ∧
    categories.overlaps .text otherCategories = true := by
  have hcomparable : categories.Comparable otherCategories := ⟨rfl, rfl, rfl⟩
  have hexact : ¬(categories.operator = .eq ∧ otherCategories.operator = .eq) := by decide
  have hours : categories.takes .text (.str "A") = true := by decide +kernel
  have htheirs : otherCategories.takes .text (.str "A") = true := by decide +kernel
  exact ⟨hcomparable, hexact, hours, htheirs,
    (overlaps_iff_common_text hcomparable hexact).2 ⟨"A", hours, htheirs⟩⟩

end Condition

/-! ### Numbers -/

/-- Of the three pairs of three numbers exactly two are near. -/
def Double.Blur (a b c : Double) : Prop :=
  (a.near b = true ∧ a.near c = true ∧ b.near c = false) ∨
  (a.near b = true ∧ a.near c = false ∧ b.near c = true) ∨
  (a.near b = false ∧ a.near c = true ∧ b.near c = true)

instance (a b c : Double) : Decidable (a.Blur b c) :=
  inferInstanceAs (Decidable (_ ∨ _))

namespace Condition

variable {q s c : Condition}

/-- The numbers that a condition names. -/
def doubles (c : Condition) : List Double := c.values.filterMap doubleOf?

/-- The value is a number that is blurred with what the two conditions name: two of the three are
near the third, and not near each other. -/
def Blurred (kind : ValueKind) (v : Json) (q s : Condition) : Prop :=
  match kind, v with
  | .number, .num n => ∃ x ∈ q.doubles, ∃ y ∈ s.doubles, n.toDouble.Blur x y
  | _, _ => False

instance (kind : ValueKind) (v : Json) (q s : Condition) : Decidable (Blurred kind v q s) :=
  match kind, v with
  | .number, .num n =>
    inferInstanceAs (Decidable (∃ x ∈ q.doubles, ∃ y ∈ s.doubles, n.toDouble.Blur x y))
  | .number, .null | .number, .bool _ | .number, .str _ | .number, .arr _ | .number, .obj _ =>
    inferInstanceAs (Decidable False)
  | .text, _ => inferInstanceAs (Decidable False)

theorem mem_doubles {w : String} {x : Double} (hw : w ∈ c.values) (hx : doubleOf? w = some x) :
    x ∈ c.doubles := List.mem_filterMap.2 ⟨w, hw, hx⟩

theorem coherent_number {n : Number} (h : ¬Blurred .number (.num n) q s) :
    Coherent .number (.num n) q s := by
  intro w hw e he
  rw [sameValue_number_iff]
  have hblur : ∀ x y, doubleOf? w = some x → doubleOf? e = some y → ¬n.toDouble.Blur x y :=
    fun x y hx hy hb => h ⟨x, mem_doubles hw hx, y, mem_doubles he hy, hb⟩
  -- in each case the pair in question is near, or the three would be blurred
  refine ⟨?_, ?_, ?_⟩
  · rintro ⟨x, hx, hnx⟩ ⟨y, hy, hny⟩
    refine ⟨y, x, hy, hx, ?_⟩
    by_contra hyx
    rw [Double.near_comm, Bool.not_eq_true] at hyx
    exact hblur x y hx hy (Or.inl ⟨hnx, hny, hyx⟩)
  · rintro ⟨x, hx, hnx⟩ ⟨y, x', hy, hx', hyx⟩
    cases hx.symm.trans hx'
    refine ⟨y, hy, ?_⟩
    by_contra hny
    rw [Double.near_comm] at hyx
    exact hblur x y hx hy (Or.inr (Or.inl ⟨hnx, Bool.not_eq_true _ ▸ hny, hyx⟩))
  · rintro ⟨y, hy, hny⟩ ⟨y', x, hy', hx, hyx⟩
    cases hy.symm.trans hy'
    refine ⟨x, hx, ?_⟩
    by_contra hnx
    rw [Double.near_comm] at hyx
    exact hblur x y hx hy (Or.inr (Or.inr ⟨Bool.not_eq_true _ ▸ hnx, hny, hyx⟩))

theorem coherent_of_not_blurred (hfit : kind.fits v = true) (h : ¬Blurred kind v q s) :
    Coherent kind v q s := by
  cases kind with
  | text =>
    cases v with
    | str t => exact coherent_text t
    | null | bool | num | arr | obj => cases hfit
  | number =>
    cases v with
    | num n => exact coherent_number h
    | null | bool | str | arr | obj => cases hfit

/-! ### Common values of another kind -/

/-- The value is not of the kind of the field, and is taken by `eq` all the same.  Compared as the
field is, the values of two `eq` are not the same, or the value of `eq` is refused by the list. -/
def Stray (kind : ValueKind) (v : Json) (q s : Condition) : Prop :=
  kind.fits v = false ∧
    ((q.operator = .eq ∧ s.operator = .eq ∧ sameValue kind s.value q.value = false) ∨
      (q.operator = .eq ∧ s.operator = .notIn ∧ containsValue kind s.values q.value = true) ∨
      (s.operator = .eq ∧ q.operator = .notIn ∧ containsValue kind q.values s.value = true))

instance (kind : ValueKind) (v : Json) (q s : Condition) : Decidable (Stray kind v q s) :=
  inferInstanceAs (Decidable (_ ∧ _))

theorem operator_of_not_fits (hp : c.operator.isPattern = false) (hfit : kind.fits v = false)
    (h : c.takes kind v = true) : c.operator = .eq ∨ c.operator = .notIn := by
  rcases operator_cases hp with heq | hin | hnot
  · exact Or.inl heq
  · obtain ⟨e, -, he⟩ := (takes_isIn_iff hin).1 h
    exact absurd he.fits (by rw [hfit]; decide)
  · exact Or.inr hnot

theorem Comparable.overlaps_eq_notIn (h : q.Comparable s) (hq : q.operator = .eq)
    (hs : s.operator = .notIn) :
    q.overlaps kind s = true ↔ ¬containsValue kind s.values q.value = true := by
  rw [h.overlaps_iff_unlisted (by rw [hq]; decide) hs, values_of_eq hq, containsValue_iff]
  simp only [List.mem_singleton, exists_eq_left]

theorem Comparable.overlaps_iff_not_stray (h : q.Comparable s) (hfit : kind.fits v = false)
    (hqv : q.takes kind v = true) (hsv : s.takes kind v = true) :
    q.overlaps kind s = true ↔ ¬Stray kind v q s := by
  -- lists take nothing of another kind, so each of the two is `eq` or `notIn`
  rcases operator_of_not_fits h.left hfit hqv with hq | hq <;>
    rcases operator_of_not_fits h.right hfit hsv with hs | hs
  · rw [h.overlaps_iff_same (by rw [hq]; decide) (by rw [hs]; decide), values_of_eq hq,
      values_of_eq hs]
    simp [Stray, hfit, hq, hs]
  · rw [h.overlaps_eq_notIn hq hs]
    simp [Stray, hfit, hq, hs]
  · rw [overlaps_comm, h.symm.overlaps_eq_notIn hs hq]
    simp [Stray, hfit, hq, hs]
  · simp [Stray, hq, hs, h.overlaps_of_notIn hq hs]

/-! ### Missed values -/

theorem not_stray_of_fits (hfit : kind.fits v = true) : ¬Stray kind v q s :=
  fun h => absurd h.1 (by rw [hfit]; decide)

theorem sameValue_self_iff {a : String} :
    sameValue kind a a = true ↔ ¬(kind = .number ∧ doubleOf? a = none) := by
  cases kind with
  | text => simp [sameValue_text_iff]
  | number =>
    rw [sameValue_number_iff]
    cases h : doubleOf? a with
    | none => simp
    | some x => simp [x.near_self]

/-- A condition that holds of some value overlaps with itself, unless it is `eq` with a text in a
field of numbers. -/
theorem overlaps_self_iff (hp : c.operator.isPattern = false) (hv : c.takes kind v = true) :
    c.overlaps kind c = true ↔
      ¬(kind = .number ∧ c.operator = .eq ∧ doubleOf? c.value = none) := by
  have h : c.Comparable c := ⟨rfl, hp, hp⟩
  rcases operator_cases hp with heq | hin | hnot
  · rw [h.overlaps_iff_same (by rw [heq]; decide) (by rw [heq]; decide), values_of_eq heq]
    simp only [List.mem_singleton, exists_eq_left, sameValue_self_iff, heq, true_and]
  · -- the entry that denotes the value is a number where numbers are compared
    have hne : c.operator ≠ .notIn := by rw [hin]; decide
    obtain ⟨e, he, hdenotes⟩ := (takes_isIn_iff hin).1 hv
    have hsame : sameValue kind e e = true := by
      rw [sameValue_self_iff]
      rintro ⟨rfl, hnone⟩
      cases v with
      | num n =>
        obtain ⟨d, hd, -⟩ := hdenotes
        cases hnone.symm.trans hd
      | null | bool | str | arr | obj => exact hdenotes
    have hoverlaps := (h.overlaps_iff_same hne hne).2 ⟨e, he, e, he, hsame⟩
    simp [hoverlaps, hin]
  · simp [h.overlaps_of_notIn hnot hnot, hnot]

/-- **A common value belongs to an overlap, in either order, exactly if it does not stray from the
kind of the field**, as long as it is not blurred with what the conditions name.  A condition that
holds of a value overlaps with itself exactly if it is not `eq` with a text in a field of numbers.
-/
theorem overlaps_of_common_value (h : q.Comparable s) (hqv : q.takes kind v = true)
    (hsv : s.takes kind v = true) :
    (¬Blurred kind v q s →
      ((q.overlaps kind s = true ∧ s.overlaps kind q = true) ↔ ¬Stray kind v q s)) ∧
    (q.overlaps kind q = true ↔
      ¬(kind = .number ∧ q.operator = .eq ∧ doubleOf? q.value = none)) := by
  refine ⟨fun hclear => ?_, overlaps_self_iff h.left hqv⟩
  rw [overlaps_comm kind s q, and_self]
  cases hfit : kind.fits v with
  | false => exact h.overlaps_iff_not_stray hfit hqv hsv
  | true =>
    have hoverlaps := h.overlaps_of_fits (coherent_of_not_blurred hfit hclear) hfit hqv hsv
    exact iff_of_true hoverlaps (not_stray_of_fits hfit)

/-- An urgency that is written as a fraction. -/
def secondUrgency : Condition := .ofParts "second" "urgency" .eq "2.0"

/-- A list of urgencies that has it. -/
def firstUrgencies : Condition := .ofParts "first two" "urgency" .isIn "1, 2"

theorem overlaps_of_common_value_second :
    secondUrgency.Comparable firstUrgencies ∧
    secondUrgency.takes .number (.num (.int 2)) = true ∧
    firstUrgencies.takes .number (.num (.int 2)) = true ∧
    ¬Blurred .number (.num (.int 2)) secondUrgency firstUrgencies ∧
    secondUrgency.overlaps .number firstUrgencies = true ∧
    firstUrgencies.overlaps .number secondUrgency = true ∧
    secondUrgency.overlaps .number secondUrgency = true := by
  have hcomparable : secondUrgency.Comparable firstUrgencies := ⟨rfl, rfl, rfl⟩
  have hsecond : secondUrgency.takes .number (.num (.int 2)) = true := by decide +kernel
  have hfirst : firstUrgencies.takes .number (.num (.int 2)) = true := by decide +kernel
  have hclear : ¬Blurred .number (.num (.int 2)) secondUrgency firstUrgencies := by decide +kernel
  obtain ⟨hcommon, hself⟩ := overlaps_of_common_value hcomparable hsecond hfirst
  obtain ⟨hleft, hright⟩ := (hcommon hclear).2 (by decide +kernel)
  exact ⟨hcomparable, hsecond, hfirst, hclear, hleft, hright, hself.2 (by decide +kernel)⟩

/-- Two numbers on either side of zero are near zero and not near each other. -/
example :
    let above := ofParts "above" "urgency" .eq "1.5e-16"
    let below := ofParts "below" "urgency" .eq "-1.5e-16"
    above.takes .number (.num (.int 0)) = true ∧ below.takes .number (.num (.int 0)) = true ∧
      Blurred .number (.num (.int 0)) above below ∧ above.overlaps .number below = false := by
  decide +kernel

/-- A text in a field of numbers. -/
def breaking : Condition := .ofParts "breaking" "urgency" .eq "breaking"

/-- A condition that can be saved and holds of a value of its field does not overlap with itself. -/
theorem breaking_missed :
    (Desk.new (.ofLayout {}) {}).checkExpressible breaking = .ok () ∧
    ((Desk.new (.ofLayout {}) {}).schema.resolve breaking.field).values = .number ∧
    breaking.operator.isPattern = false ∧ breaking.takes .number (.str "breaking") = true ∧
    breaking.overlaps .number breaking = false :=
  ⟨eq_ok_of_toOption (by decide +kernel), by decide +kernel, rfl, by decide +kernel,
    by decide +kernel⟩

end Condition

end Newswire
