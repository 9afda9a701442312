import Newswire.Collection.Keyed
import Newswire.Number.Shortest

/-!
# Documents

`Json` is the type of all documents: content items, stored rules and queries.  Numbers keep
integers and doubles apart (`Number`).  The members of an object are listed by key; objects made
by `Json.object` list them in strictly increasing key order, and `Json.get?` finds a member by its
key in any listing.
-/

namespace Newswire

/-- A number in a document. -/
inductive Number where
  /-- An integer, from `-2 ^ 63` up to `2 ^ 64 - 1` when it was read from text. -/
  | int (i : Int)
  /-- A double precision number. -/
  | real (d : Double)
  deriving DecidableEq, Repr, Inhabited

namespace Number

/-- The double nearest to a number. -/
def toDouble : Number → Double
  | int i => .ofInt i
  | real d => d

/-- The text of a number in a document. -/
def text : Number → String
  | int i => Text.ofInt i
  | real d => d.text

/-- Equality of numbers in the rule language. -/
def near (a b : Number) : Bool := a.toDouble.near b.toDouble

end Number

/-- A document. -/
inductive Json where
  /-- The empty value. -/
  | null
  /-- A truth value. -/
  | bool (b : Bool)
  /-- A number. -/
  | num (n : Number)
  /-- A text. -/
  | str (s : String)
  /-- An array of values. -/
  | arr (items : List Json)
  /-- An object with its members. -/
  | obj (members : List (String × Json))
  deriving Repr, Inhabited

namespace Json

/-- Members in key order; of several with one key the last counts. -/
def sortMembers (members : List (String × Json)) : List (String × Json) :=
  members.foldl (fun acc (k, v) => Keyed.insert k v acc) []

/-- The object with the given members; of several with one key the last counts. -/
def object (members : List (String × Json)) : Json := obj (sortMembers members)

/-- An array of texts. -/
def strings (ss : List String) : Json := arr (ss.map str)

/-- An integer. -/
def ofInt (i : Int) : Json := num (.int i)

/-- A count. -/
def ofNat (n : Nat) : Json := num (.int n)

/-- A text, or the empty value. -/
def ofText? : Option String → Json
  | some s => str s
  | none => null

/-- The member of an object with the given key; other values have no members. -/
def get? (key : String) : Json → Option Json
  | obj members => members.lookup key
  | _ => none

/-- The text of a text value. -/
def text? : Json → Option String
  | str s => some s
  | _ => none

/-- The truth value of a truth value. -/
def bool? : Json → Option Bool
  | bool b => some b
  | _ => none

/-- The items of an array. -/
def items? : Json → Option (List Json)
  | arr items => some items
  | _ => none

/-- The members of an object. -/
def members? : Json → Option (List (String × Json))
  | obj members => some members
  | _ => none

/-- The value of an integer that is not negative. -/
def nat? : Json → Option Nat
  | num (.int i) => if 0 ≤ i then some i.toNat else none
  | _ => none

/-- Objects. -/
def isObject : Json → Bool
  | obj _ => true
  | _ => false

/-- Texts, numbers and truth values: the values that count as present in a field. -/
def isScalar : Json → Bool
  | str _ | num _ | bool _ => true
  | _ => false

/-- Equality of scalars: texts and truth values exactly, numbers as `Number.near`.  Values of
different kinds, and values that are no scalars, are never equal. -/
def sameScalar : Json → Json → Bool
  | str a, str b => a == b
  | num a, num b => a.near b
  | bool a, bool b => a == b
  | _, _ => false

end Json

end Newswire
