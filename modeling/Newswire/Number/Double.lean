import Newswire.Text.Digits

/-!
# Finite double precision numbers

A `Double` is a finite binary64 number, held exactly: its sign and its magnitude counted in units
of `2 ^ (-1074)`, the smallest positive one.  All arithmetic below is exact arithmetic on natural
numbers followed by one rounding (`roundUnits`), to the nearest number of 53 significant bits with
ties to the even one.

`Double.near` is the equality of the rule language: two numbers are the same when their rounded
difference is below `2 ^ (-52)`.  It is symmetric (`Double.near_comm`) and holds of equal numbers
(`Double.near_self`), but it is not transitive.
-/

namespace Newswire

/-- A finite double precision number. -/
structure Double where
  /-- The sign; zero has both. -/
  negative : Bool
  /-- The magnitude in units of `2 ^ (-1074)`. -/
  units : Nat
  deriving DecidableEq, Repr, Inhabited

namespace Double

-- Powers are those of the core library, also where a library of algebra brings its own.
attribute [local instance (20000)] instPowNat

/-- The number of units in `2 ^ (n - 1074)`. -/
def scale (n : Nat) : Nat := 2 ^ n

theorem scale_pos (n : Nat) : 0 < scale n := Nat.two_pow_pos n

/-- The number of units in one. -/
def unit : Nat := scale 1074

/-- Magnitudes from here on are out of range. -/
def bound : Nat := scale 2098

/-- The integer nearest to `num / den`, the even one of two at the same distance. -/
def roundDiv (num den : Nat) : Nat :=
  let q := num / den
  let r := num % den
  if 2 * r < den then q else if den < 2 * r then q + 1 else if q % 2 = 0 then q else q + 1

/-- The representable magnitude nearest to `num / den` units. -/
def roundUnits (num den : Nat) : Nat :=
  let drop := (num / den).log2 - 52
  roundDiv num (den * 2 ^ drop) * 2 ^ drop

/-- The number nearest to `num / den` units, if it is in range. -/
def ofRatio? (negative : Bool) (num den : Nat) : Option Double :=
  let u := roundUnits num den
  if u < bound then some ⟨negative, u⟩ else none

/-- The number nearest to an integer. -/
def ofInt (i : Int) : Double := ⟨i < 0, roundUnits (i.natAbs * unit) 1⟩

/-- Zero with a sign. -/
def zero (negative : Bool) : Double := ⟨negative, 0⟩

/-- The number nearest to `digits * 10 ^ exponent`, if it is in range. -/
def ofDecimal? (negative : Bool) (digits : Nat) (exponent : Int) : Option Double :=
  let magnitude := (Text.natDigits digits).length + exponent
  if digits = 0 ∨ magnitude < -400 then some (zero negative)
  else if 400 < magnitude then none
  else if 0 ≤ exponent then ofRatio? negative (digits * 10 ^ exponent.toNat * unit) 1
  else ofRatio? negative (digits * unit) (10 ^ (-exponent).toNat)

/-- The product with a power of ten that is itself rounded first, if it is in range. -/
def timesPower? (d : Double) (n : Nat) : Option Double :=
  ofRatio? d.negative (d.units * roundUnits (10 ^ n * unit) 1) unit

/-- The quotient by a power of ten that is itself rounded first. -/
def overPower (d : Double) (n : Nat) : Double :=
  ⟨d.negative, roundUnits (d.units * unit) (roundUnits (10 ^ n * unit) 1)⟩

/-- The magnitude with its sign. -/
def signed (d : Double) : Int := if d.negative then -(d.units : Int) else d.units

/-- The exact difference of two numbers that are still told apart: those whose rounded difference
is below `2 ^ (-52)` differ by less than the middle between it and its lower neighbour. -/
def tolerance : Nat := (scale 54 - 1) * scale 968

/-- Equality of numbers in the rule language. -/
def near (a b : Double) : Bool := (a.signed - b.signed).natAbs < tolerance

theorem near_comm (a b : Double) : near a b = near b a := by
  simp only [near]
  rw [← Int.natAbs_neg, Int.neg_sub]

theorem tolerance_pos : 0 < tolerance := Nat.mul_pos (by decide) (scale_pos 968)

theorem near_self (a : Double) : near a a = true := by
  have h : (a.signed - a.signed).natAbs < tolerance := by
    rw [Int.sub_self]; exact tolerance_pos
  exact decide_eq_true h

/-! ### Reading -/

/-- The exponent that follows `e`: a non-empty run of digits with an optional sign. -/
def readExponent? (cs : List Char) : Option Int :=
  match cs with
  | '-' :: rest => (Text.readNat? rest).map fun n : Nat => -(n : Int)
  | '+' :: rest => (Text.readNat? rest).map fun n : Nat => (n : Int)
  | _ => (Text.readNat? cs).map fun n : Nat => (n : Int)

/-- Digits and a power of ten. -/
structure Parts where
  /-- The digits read as one natural number. -/
  digits : Nat
  /-- The power of ten that the last digit counts. -/
  exponent : Int

/-- The digits and the power of ten of unsigned decimal text: digits with an optional point among or
around them, then an optional exponent. -/
def parts? (cs : List Char) : Option Parts :=
  let whole := cs.takeWhile Text.isDigit
  let afterWhole := cs.dropWhile Text.isDigit
  let (fraction, afterFraction) := match afterWhole with
    | '.' :: rest => (rest.takeWhile Text.isDigit, rest.dropWhile Text.isDigit)
    | _ => ([], afterWhole)
  if whole.isEmpty && fraction.isEmpty then none
  else
    let digits := Text.natOfDigits (whole ++ fraction)
    let places : Int := fraction.length
    match afterFraction with
    | [] => some ⟨digits, -places⟩
    | c :: rest =>
      if c = 'e' ∨ c = 'E' then (readExponent? rest).map fun e => ⟨digits, e - places⟩
      else none

/-- The sign of a text, negative or not, and the rest. -/
def splitSign (cs : List Char) : Bool × List Char :=
  match cs with
  | '-' :: rest => (true, rest)
  | '+' :: rest => (false, rest)
  | _ => (false, cs)

/-- The finite number that a text denotes: decimal notation with an optional sign, rounded to the
nearest.  Text that is no number, or names one out of range, denotes none. -/
def read? (cs : List Char) : Option Double :=
  let (negative, rest) := splitSign cs
  (parts? rest).bind fun p => ofDecimal? negative p.digits p.exponent

end Double

end Newswire
