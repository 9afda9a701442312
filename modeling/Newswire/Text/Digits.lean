/-!
# Whole numbers written in decimal digits

Readers for the whole numbers that occur inside text: an index in a dotted path, a count, a
signed number in a condition's value.  Each refuses anything but digits after an optional sign
and any number outside its range.
-/

namespace Newswire

namespace Text

/-- The first number that 64 bits do not hold, `2 ^ 64`. -/
abbrev unsignedBound : Nat := 0x10000000000000000

/-- The first number that 63 bits do not hold, `2 ^ 63`. -/
abbrev signedBound : Nat := 0x8000000000000000

/-- ASCII digits. -/
def isDigit (c : Char) : Bool := '0' ≤ c && c ≤ '9'

/-- The number that a run of digits denotes. -/
def natOfDigits (cs : List Char) : Nat :=
  cs.foldl (fun n c => 10 * n + (c.toNat - '0'.toNat)) 0

/-- A non-empty run of ASCII digits and nothing else. -/
def readNat? (cs : List Char) : Option Nat :=
  if !cs.isEmpty && cs.all isDigit then some (natOfDigits cs) else none

/-- A number below `2 ^ 64`, with an optional plus sign. -/
def readUnsigned? (cs : List Char) : Option Nat :=
  let digits := match cs with
    | '+' :: rest => rest
    | _ => cs
  (readNat? digits).filter (· < unsignedBound)

/-- A number from `-2 ^ 63` up to `2 ^ 63 - 1`, with an optional sign. -/
def readSigned? (cs : List Char) : Option Int :=
  match cs with
  | '-' :: rest => ((readNat? rest).filter (· ≤ signedBound)).map fun n : Nat => -(n : Int)
  | '+' :: rest => ((readNat? rest).filter (· < signedBound)).map fun n : Nat => (n : Int)
  | _ => ((readNat? cs).filter (· < signedBound)).map fun n : Nat => (n : Int)

/-- The value of a hexadecimal digit. -/
def hexValue? (c : Char) : Option Nat :=
  if '0' ≤ c ∧ c ≤ '9' then some (c.toNat - '0'.toNat)
  else if 'a' ≤ c ∧ c ≤ 'f' then some (c.toNat - 'a'.toNat + 10)
  else if 'A' ≤ c ∧ c ≤ 'F' then some (c.toNat - 'A'.toNat + 10)
  else none

/-- The number that a run of hexadecimal digits denotes. -/
def natOfHex? (cs : List Char) : Option Nat :=
  cs.foldlM (fun n c => (hexValue? c).map (16 * n + ·)) 0

/-- The decimal digits of a natural number, the most significant first. -/
def natDigits (n : Nat) : List Char := Nat.toDigits 10 n

/-- A natural number in decimal. -/
def ofNat (n : Nat) : String := String.ofList (natDigits n)

/-- An integer in decimal, with a minus sign when negative. -/
def ofInt (i : Int) : String :=
  if i < 0 then String.ofList ('-' :: natDigits i.natAbs) else ofNat i.natAbs

end Text

end Newswire
