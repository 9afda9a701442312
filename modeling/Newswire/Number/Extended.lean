import Newswire.Number.Shortest
import Newswire.Text.Blank

/-!
# Double precision numbers with infinities

Settings may name numbers that are out of range or undefined.  `Extended` adds these to the finite
doubles.
-/

namespace Newswire

/-- A double precision number, finite or not. -/
inductive Extended where
  /-- A finite number. -/
  | finite (d : Double)
  /-- A number out of range. -/
  | infinite (negative : Bool)
  /-- No number. -/
  | undefined
  deriving DecidableEq, Repr

namespace Extended

/-- The words for the numbers that are not finite, without sign. -/
def ofWord? (negative : Bool) (word : String) : Option Extended :=
  if word == "inf" || word == "infinity" then some (infinite negative)
  else if word == "nan" then some undefined
  else none

/-- The number that a text denotes: decimal notation or a word in any case, with an optional
sign. -/
def read? (cs : List Char) : Option Extended :=
  let (negative, rest) := Double.splitSign cs
  match ofWord? negative (Text.asciiLower (String.ofList rest)) with
  | some x => some x
  | none => (Double.parts? rest).map fun p =>
    match Double.ofDecimal? negative p.digits p.exponent with
    | some d => finite d
    | none => infinite negative

/-- The text of a number without any exponent. -/
def text : Extended → String
  | finite d => d.plainText
  | infinite false => "inf"
  | infinite true => "-inf"
  | undefined => "NaN"

/-- The number is zero. -/
def isZero : Extended → Bool
  | finite d => d.units == 0
  | infinite _ | undefined => false

/-- The nearest whole number from 0 up to `2 ^ 64 - 1`, a half upwards; zero for no number. -/
def toUnsigned : Extended → Nat
  | finite d =>
    if d.negative then 0
    else min ((2 * d.units + Double.unit) / (2 * Double.unit)) (Text.unsignedBound - 1)
  | infinite false => Text.unsignedBound - 1
  | infinite true | undefined => 0

end Extended

end Newswire
