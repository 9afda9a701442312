import Newswire.Number.Double

/-!
# The shortest decimal that denotes a double

Among the decimals that read back as a given number, `Double.shortest` takes one with the fewest
digits, and of these the nearest to the number.  `Decimal` holds its digits and the exponent of
the first digit; how it is laid out is for `Double.text` (with a point always, an exponent outside
a middle range) and `Double.plainText` (positional throughout, no point in whole numbers).
-/

namespace Newswire

/-- A positive decimal `0.d₁d₂… * 10 ^ (exponent + 1)` given by its digits. -/
structure Decimal where
  /-- The digits `d₁ d₂ …` read as one natural number. -/
  digits : Nat
  /-- The power of ten that the first digit counts. -/
  exponent : Int
  deriving DecidableEq, Repr, Inhabited

namespace Decimal

/-- The significant digits, without the zeros at the end. -/
def significant (d : Decimal) : List Char :=
  ((Text.natDigits d.digits).reverse.dropWhile (· == '0')).reverse

/-- The digits before the point and those after it when no exponent is written. -/
def positional (d : Decimal) : List Char × List Char :=
  let ds := d.significant
  if 0 ≤ d.exponent then
    let before := d.exponent.toNat + 1
    (ds.take before ++ List.replicate (before - ds.length) '0', ds.drop before)
  else (['0'], List.replicate ((-d.exponent).toNat - 1) '0' ++ ds)

end Decimal

namespace Double

-- Powers are those of the core library, also where a library of algebra brings its own.
attribute [local instance (20000)] instPowNat

/-- The distance in units from a magnitude to the next larger one. -/
def gap (units : Nat) : Nat := 2 ^ (units.log2 - 52)

/-- Some number between `num / den` units and the magnitude rounds to the magnitude: twice the
distance is at most the gap on that side, where the ends count for an even significand. -/
def readsBack (units num den : Nat) : Bool :=
  let up := gap units
  let even := (units / up) % 2 == 0
  let down := if units = 2 ^ units.log2 then gap (units - 1) else up
  let twice := 2 * num
  let ends (distance reach : Nat) := distance < reach || (even && distance == reach)
  if units * den ≤ num then ends (twice - 2 * units * den) (up * den)
  else ends (2 * units * den - twice) (down * den)

/-- How many decimal digits a natural number has; zero has none. -/
def digitCount (n : Nat) : Nat := if n = 0 then 0 else (Text.natDigits n).length

/-- The power of ten that the first digit of a positive magnitude counts. -/
def leadingPower (units : Nat) : Int :=
  if unit ≤ units then digitCount (units / unit) - 1
  else -(digitCount ((unit + units - 1) / units - 1) : Int)

/-- The decimal with `n` digits nearest to the magnitude among those that read back, if any. -/
def withDigits? (units n : Nat) : Option Decimal :=
  let power := leadingPower units - (n - 1 : Int)
  -- the magnitude in steps of `10 ^ power` is `num / den`
  let num := if 0 ≤ power then units else units * 10 ^ (-power).toNat
  let den := if 0 ≤ power then unit * 10 ^ power.toNat else unit
  let low := num / den
  let reads (k : Nat) : Bool :=
    if 0 ≤ power then readsBack units (k * 10 ^ power.toNat * unit) 1
    else readsBack units (k * unit) (10 ^ (-power).toNat)
  let twice := 2 * (num - low * den)
  let lowNearer := twice < den || (twice == den && low % 2 == 0)
  let (first, second) := if lowNearer then (low, low + 1) else (low + 1, low)
  (if reads first then some first else if reads second then some second else none).map fun k =>
    ⟨k, power + ((digitCount k : Int) - 1)⟩

/-- The shortest decimal that reads back as a positive magnitude, the nearest of several. -/
def shortest (units : Nat) : Decimal :=
  ((List.range 17).findSome? fun i => withDigits? units (i + 1)).getD ⟨0, 0⟩

/-- A minus sign in front of the text of a negative number. -/
def withSign (d : Double) (cs : List Char) : String :=
  String.ofList (if d.negative then '-' :: cs else cs)

/-- The text of a number in a document: positional when the first digit counts a power of ten from
-5 to 15, with at least one digit after the point, and with an exponent otherwise. -/
def text (d : Double) : String :=
  if d.units = 0 then d.withSign ['0', '.', '0']
  else
    let s := shortest d.units
    if -5 ≤ s.exponent ∧ s.exponent ≤ 15 then
      let (before, after) := s.positional
      d.withSign (before ++ '.' :: (if after.isEmpty then ['0'] else after))
    else
      let sign := if s.exponent < 0 then '-' else '+'
      let mantissa := match s.significant with
        | first :: more@(_ :: _) => first :: '.' :: more
        | ds => ds
      d.withSign (mantissa ++ 'e' :: sign :: Text.natDigits s.exponent.natAbs)

/-- The text of a number without any exponent, and without a point when it is whole. -/
def plainText (d : Double) : String :=
  if d.units = 0 then d.withSign ['0']
  else
    let (before, after) := (shortest d.units).positional
    d.withSign (if after.isEmpty then before else before ++ '.' :: after)

end Double

end Newswire
