import Mathlib.Data.List.TakeWhile
import Mathlib.Tactic.Set
import Mathlib.Tactic.SplitIfs
import Newswire.Number.Double

/-!
# Whole numbers and decimal numbers in one text

The value of a condition is read in two ways.  Evaluation reads it as a double
(`Double.read?`); a query first tries to read it as a whole number (`Text.readSigned?`) and keeps
that.  Both readings stand for the same number of the rule language:

* `Double.read?_of_readSigned?` : text that is a whole number in range is also a double, with the
  sign and the magnitude of the double nearest to the whole number.
* `Double.near_congr` : `Double.near` sees of a number only its `Double.signed`.
-/

namespace Newswire

namespace Double

theorem scale_mul (m n : Nat) : scale m * scale n = scale (m + n) := (Nat.pow_add 2 m n).symm

theorem scale_lt_scale {m n : Nat} (h : m < n) : scale m < scale n :=
  Nat.pow_lt_pow_right (by decide) h

theorem two_mul_le_scale {n : Nat} (h : n < Text.unsignedBound) (u : Nat) :
    2 * (n * u) ≤ scale 1 * (scale 64 * u) :=
  Nat.mul_le_mul (by decide) (Nat.mul_le_mul_right u h.le)

theorem roundDiv_le (num den : Nat) : roundDiv num den ≤ num / den + 1 := by
  simp only [roundDiv]
  split_ifs <;> omega

theorem roundUnits_zero (den : Nat) : roundUnits 0 den = 0 := by
  simp [roundUnits, roundDiv]

/-- Rounding at most doubles a whole number of units. -/
theorem roundUnits_one_le (x : Nat) : roundUnits x 1 ≤ 2 * x := by
  by_cases hx : x = 0
  · rw [hx, roundUnits_zero]
  · simp only [roundUnits, Nat.div_one, Nat.one_mul]
    set p := 2 ^ (x.log2 - 52)
    have hp : p ≤ x := calc
      p ≤ 2 ^ x.log2 := Nat.pow_le_pow_right (by decide) (Nat.sub_le _ _)
      _ ≤ x := Nat.log2_self_le hx
    calc roundDiv x p * p ≤ (x / p + 1) * p := Nat.mul_le_mul_right p (roundDiv_le x p)
      _ = x / p * p + p := by rw [Nat.add_mul, Nat.one_mul]
      _ ≤ x + p := Nat.add_le_add_right (Nat.div_mul_le_self x p) p
      _ ≤ 2 * x := by omega

theorem near_congr {a b : Double} (h : a.signed = b.signed) (c : Double) : c.near a = c.near b := by
  simp only [near, h]

/-! ### Digits -/

theorem takeWhile_isDigit {cs : List Char} (h : cs.all Text.isDigit = true) :
    cs.takeWhile Text.isDigit = cs ∧ cs.dropWhile Text.isDigit = [] := by
  rw [List.all_eq_true] at h
  exact ⟨List.takeWhile_eq_self_iff.2 h, List.dropWhile_eq_nil_iff.2 h⟩

theorem parts?_of_readNat? {cs : List Char} {n : Nat} (h : Text.readNat? cs = some n) :
    parts? cs = some ⟨n, 0⟩ := by
  obtain ⟨⟨hne, hall⟩, rfl⟩ : (cs.isEmpty = false ∧ cs.all Text.isDigit = true) ∧
      Text.natOfDigits cs = n := by
    simpa [Text.readNat?] using h
  obtain ⟨htake, hdrop⟩ := takeWhile_isDigit hall
  simp [parts?, htake, hdrop, hne]

/-- A whole number below `2 ^ 64` is read without its text being out of range. -/
theorem ofDecimal?_zero (negative : Bool) {n : Nat} (h : n < Text.unsignedBound) :
    ofDecimal? negative n 0 = some ⟨negative, roundUnits (n * unit) 1⟩ := by
  by_cases hn : n = 0
  · simp [ofDecimal?, hn, zero, roundUnits_zero]
  · -- twenty digits are far from either end of the range, so the number is rounded as it stands
    have hlen : (Text.natDigits n).length ≤ 20 :=
      (Nat.length_toDigits_le_iff (by decide) (by decide)).2 (Nat.lt_trans h (by decide))
    have hlow : ¬(n = 0 ∨ ((Text.natDigits n).length : Int) + 0 < -400) := by omega
    have hhigh : ¬400 < ((Text.natDigits n).length : Int) + 0 := by omega
    have hbound : roundUnits (n * unit) 1 < bound := calc
      roundUnits (n * unit) 1 ≤ 2 * (n * unit) := roundUnits_one_le _
      _ ≤ scale 1 * (scale 64 * unit) := two_mul_le_scale h unit
      _ = scale (1 + (64 + 1074)) := by rw [unit, scale_mul, scale_mul]
      _ < bound := scale_lt_scale (by decide)
    simp only [ofDecimal?, hlow, hhigh, if_false, Int.le_refl, if_true, Int.toNat_zero,
      Nat.pow_zero, Nat.mul_one, ofRatio?, hbound]

theorem signed_mk_zero (negative : Bool) : signed ⟨negative, 0⟩ = 0 := by
  simp [signed]

theorem signed_ofInt_neg (n : Nat) :
    signed ⟨true, roundUnits (n * unit) 1⟩ = (ofInt (-(n : Int))).signed := by
  by_cases hn : n = 0
  · simp [hn, ofInt, roundUnits_zero, signed_mk_zero]
  · have hneg : 0 < n := Nat.pos_of_ne_zero hn
    simp [ofInt, hneg]

theorem signed_ofInt_nat (n : Nat) :
    signed ⟨false, roundUnits (n * unit) 1⟩ = (ofInt n).signed := by
  have hpos : ¬(n : Int) < 0 := by omega
  simp [ofInt, hpos]

theorem exists_of_readNat? (negative : Bool) {cs : List Char} {n : Nat}
    (h : Text.readNat? cs = some n) (hn : n < Text.unsignedBound) :
    (parts? cs).bind (fun p => ofDecimal? negative p.digits p.exponent) =
      some ⟨negative, roundUnits (n * unit) 1⟩ := by
  rw [parts?_of_readNat? h, Option.bind_some, ofDecimal?_zero negative hn]

/-- **Both readings of a whole number agree.** -/
theorem read?_of_readSigned? {cs : List Char} {i : Int} (h : Text.readSigned? cs = some i) :
    ∃ d, read? cs = some d ∧ d.signed = (ofInt i).signed := by
  unfold Text.readSigned? at h
  split at h
  · next rest =>
    obtain ⟨n, hn, rfl⟩ := Option.map_eq_some_iff.1 h
    obtain ⟨hread, hle⟩ := Option.filter_eq_some_iff.1 hn
    have hlt : n < Text.unsignedBound := Nat.lt_of_le_of_lt (of_decide_eq_true hle) (by decide)
    exact ⟨_, exists_of_readNat? true hread hlt, signed_ofInt_neg n⟩
  · next rest =>
    obtain ⟨n, hn, rfl⟩ := Option.map_eq_some_iff.1 h
    obtain ⟨hread, hle⟩ := Option.filter_eq_some_iff.1 hn
    have hlt : n < Text.unsignedBound := Nat.lt_trans (of_decide_eq_true hle) (by decide)
    exact ⟨_, exists_of_readNat? false hread hlt, signed_ofInt_nat n⟩
  · -- without a sign the whole text is the number
    next hminus hplus =>
    obtain ⟨n, hn, rfl⟩ := Option.map_eq_some_iff.1 h
    obtain ⟨hread, hle⟩ := Option.filter_eq_some_iff.1 hn
    have hlt : n < Text.unsignedBound := Nat.lt_trans (of_decide_eq_true hle) (by decide)
    have hsign : splitSign cs = (false, cs) := by
      unfold splitSign
      split
      · exact absurd rfl (hminus _)
      · exact absurd rfl (hplus _)
      · rfl
    have hread' := exists_of_readNat? false hread hlt
    exact ⟨_, by rw [read?, hsign]; exact hread', signed_ofInt_nat n⟩

end Double

end Newswire
