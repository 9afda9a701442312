import Newswire.Proofs.Rule.Value
import Newswire.Proofs.Text.Literal
import Newswire.Rule.Comparison

/-!
# Comparing candidate by candidate

Evaluation compares all candidates of a field at once, queries compare them one by one.
`Operator.admits` is what an operator asks of one candidate, and every comparison is put back
together from it:

* `Operator.accepts_eq_any` : an operator other than `notIn` accepts the candidates of which it
  admits one.
* `Operator.accepts_notIn` : `notIn` accepts candidates with a scalar among them and none that it
  admits.
* `equalsValue_eq`, `inList` : equality and lists in the words of the queries, that is with
  `Json.sameScalar` and `caselessEqual`.
-/

namespace Newswire

/-- The value is a text that passes a test. -/
def Json.textIs (p : String → Bool) : Json → Bool
  | .str s => p s
  | _ => false

/-- A candidate equals an entry of a list value: as a number, or as a text whatever its case. -/
def inList (kind : ValueKind) (value : String) (candidate : Json) : Bool :=
  match kind with
  | .number => ((listEntries value).filterMap numberOf?).any fun n => candidate.sameScalar (.num n)
  | .text => (listEntries value).any fun e => candidate.textIs (caselessEqual e)

/-- What an operator asks of one candidate; `notIn` asks what `isIn` does. -/
def Operator.admits (op : Operator) (kind : ValueKind) (value : String) (candidate : Json) : Bool :=
  match op with
  | like | startsWith | endsWith => candidate.textIs ((op.steps value).found true)
  | eq => equalsValue value candidate
  | isIn | notIn => inList kind value candidate

theorem Json.isScalar_of_textIs {p : String → Bool} {v : Json} (h : v.textIs p = true) :
    v.isScalar = true := by
  cases v <;> simp_all [Json.textIs, Json.isScalar]

theorem Json.isScalar_of_sameScalar {v w : Json} (h : v.sameScalar w = true) :
    v.isScalar = true := by
  cases v <;> simp_all [Json.sameScalar, Json.isScalar]

/-! ### Equality -/

/-- A candidate equals a value as a text, or as the number that the value denotes. -/
theorem equalsValue_eq (value : String) (candidate : Json) :
    equalsValue value candidate = (candidate.sameScalar (.str value) ||
      (numberOf? value).elim false fun n => candidate.sameScalar (.num n)) := by
  cases hn : numberOf? value with
  | none =>
    have hd := numberOf?_eq_none_iff.1 hn
    cases candidate <;> simp [equalsValue, Json.sameScalar, hd]
  | some n =>
    obtain ⟨d, hd, hnear⟩ := exists_double_of_numberOf? hn
    cases candidate <;> simp [equalsValue, Json.sameScalar, hd, hnear]

theorem isScalar_of_equalsValue {value : String} {candidate : Json}
    (h : equalsValue value candidate = true) : candidate.isScalar = true := by
  cases candidate <;> simp_all [equalsValue, Json.isScalar]

/-! ### Lists -/

theorem anyTextFinds_eq {pattern : String} {p : Text.Pattern}
    (h : Text.Pattern.read? pattern.toList = some p) (candidates : List Json) :
    anyTextFinds pattern candidates = candidates.any (Json.textIs (p.found true)) := by
  simp only [anyTextFinds, h]
  rfl

theorem caselessEqual_eq (value : String) :
    caselessEqual value =
      Text.Pattern.found true (.start :: (value.toList.map .char ++ [.finish])) := by
  funext s
  rw [caselessEqual, caselessFound, read?_exactPattern]

theorem anyTextFinds_exactPattern (e : String) (candidates : List Json) :
    anyTextFinds (exactPattern e) candidates = candidates.any (Json.textIs (caselessEqual e)) := by
  rw [anyTextFinds_eq (read?_exactPattern e), caselessEqual_eq]

theorem any_near_double (entries : List String)
    (h : ∀ e ∈ entries, Text.trimChars e.toList = e.toList) (m : Number) :
    (entries.filterMap fun e => Double.read? e.toList).any (m.toDouble.near ·) =
      (entries.filterMap numberOf?).any (m.near ·) := by
  -- an entry is a number for both or for neither, and the numbers are near the same ones
  induction entries with
  | nil => rfl
  | cons e rest ih =>
    have htrim := h e List.mem_cons_self
    have hrest := ih fun e' he' => h e' (List.mem_cons_of_mem _ he')
    cases hn : numberOf? e with
    | none =>
      have hd := numberOf?_eq_none_iff.1 hn
      rw [htrim] at hd
      simp only [List.filterMap_cons, hn, hd, hrest]
    | some n =>
      obtain ⟨d, hd, hnear⟩ := exists_double_of_numberOf? hn
      rw [htrim] at hd
      simp only [List.filterMap_cons, hn, hd, List.any_cons, hrest, hnear]

theorem any_comm {α β : Type} (xs : List α) (ys : List β) (p : α → β → Bool) :
    (xs.any fun x => ys.any (p x)) = ys.any fun y => xs.any fun x => p x y := by
  rw [Bool.eq_iff_iff]
  simp only [List.any_eq_true]
  exact ⟨fun ⟨x, hx, y, hy, h⟩ => ⟨y, hy, x, hx, h⟩, fun ⟨y, hy, x, hx, h⟩ => ⟨x, hx, y, hy, h⟩⟩

theorem anyInList_eq_any (kind : ValueKind) (value : String) (candidates : List Json) :
    anyInList kind value candidates = candidates.any (inList kind value) := by
  cases kind with
  | number =>
    simp only [anyInList]
    congr 1
    funext v
    cases v with
    | num m => exact any_near_double _ (fun e he => trimChars_of_mem_listEntries he) m
    | null | bool _ | str _ | arr _ | obj _ =>
      exact (List.any_eq_false.2 fun n _ => Bool.false_ne_true).symm
  | text =>
    simp only [anyInList, anyTextFinds_exactPattern]
    exact any_comm _ _ _

theorem isScalar_of_inList {kind : ValueKind} {value : String} {candidate : Json}
    (h : inList kind value candidate = true) : candidate.isScalar = true := by
  cases kind with
  | number =>
    obtain ⟨n, -, hn⟩ := List.any_eq_true.1 h
    exact Json.isScalar_of_sameScalar hn
  | text =>
    obtain ⟨e, -, he⟩ := List.any_eq_true.1 h
    exact Json.isScalar_of_textIs he

/-! ### All operators -/

namespace Operator

variable {op : Operator} {kind : ValueKind} {value : String}

theorem isScalar_of_admits {candidate : Json} (h : op.admits kind value candidate = true) :
    candidate.isScalar = true := by
  cases op with
  | like | startsWith | endsWith => exact Json.isScalar_of_textIs h
  | eq => exact isScalar_of_equalsValue h
  | isIn | notIn => exact isScalar_of_inList h

/-- Being present is no further demand where some candidate is admitted. -/
theorem isPresent_and_any (candidates : List Json) :
    (isPresent candidates && candidates.any (op.admits kind value)) =
      candidates.any (op.admits kind value) := by
  rw [Bool.and_eq_right_iff_imp]
  intro h
  obtain ⟨c, hc, ha⟩ := List.any_eq_true.1 h
  exact List.any_eq_true.2 ⟨c, hc, isScalar_of_admits ha⟩

theorem patternFound_eq (h : op.isPattern = true) (candidates : List Json) :
    (match op.pattern? value with
      | some pattern => anyTextFinds pattern candidates
      | none => false) = candidates.any (Json.textIs ((op.steps value).found true)) := by
  obtain ⟨pattern, hp, hread⟩ := read?_pattern h value
  rw [hp]
  exact anyTextFinds_eq hread candidates

/-- **An operator other than `notIn` accepts the candidates of which it admits one.** -/
theorem accepts_eq_any (h : op ≠ .notIn) (candidates : List Json) :
    op.accepts kind value candidates = candidates.any (op.admits kind value) := by
  rw [← isPresent_and_any]
  refine congrArg (isPresent candidates && ·) ?_
  cases op with
  | like => exact @patternFound_eq .like value rfl candidates
  | startsWith => exact @patternFound_eq .startsWith value rfl candidates
  | endsWith => exact @patternFound_eq .endsWith value rfl candidates
  | eq => rfl
  | isIn => exact anyInList_eq_any kind value candidates
  | notIn => exact absurd rfl h

theorem accepts_notIn (candidates : List Json) :
    notIn.accepts kind value candidates =
      (candidates.any Json.isScalar && !candidates.any (notIn.admits kind value)) := by
  simp only [accepts, isPresent, anyInList_eq_any]
  rfl

/-- What is asked of a field with a single value. -/
theorem accepts_single (h : op ≠ .notIn) (candidate : Json) :
    op.accepts kind value [candidate] = op.admits kind value candidate := by
  rw [accepts_eq_any h, List.any_cons, List.any_nil, Bool.or_false]

theorem accepts_single_notIn (candidate : Json) :
    notIn.accepts kind value [candidate] =
      (candidate.isScalar && !inList kind value candidate) := by
  rw [accepts_notIn, List.any_cons, List.any_nil, Bool.or_false, List.any_cons, List.any_nil,
    Bool.or_false]
  rfl

end Operator

end Newswire
