import Newswire.Collection.Keyed
import Newswire.Number.Extended

/-!
# Values in settings

Settings come from files and from variables, which do not agree on types: a variable may hold `1`
where a switch is wanted.  A `Setting` is a value as it was found, and `Setting.asFlag?`,
`asText?` and `asCount?` take it for what is wanted, if that makes sense.

`Setting.laidOver` puts a value over an earlier one.  Tables are merged member by member, all other
values are replaced.
-/

namespace Newswire

/-- A value in settings. -/
inductive Setting where
  /-- A gap. -/
  | nothing
  /-- A truth value. -/
  | flag (b : Bool)
  /-- An integer. -/
  | integer (i : Int)
  /-- A number with a fraction. -/
  | real (x : Extended)
  /-- A text. -/
  | text (s : String)
  /-- A list of values. -/
  | list (items : List Setting)
  /-- Values by key. -/
  | table (members : List (String × Setting))
  deriving Repr, Inhabited

namespace Setting

/-- The members of a table; other values have none. -/
def members : Setting → List (String × Setting)
  | table ms => ms
  | _ => []

/-- The items of a list; other values have none. -/
def items : Setting → List Setting
  | list items => items
  | _ => []

/-! ### Reading as what is wanted -/

/-- The words for yes and for no. -/
def truthOf? (word : String) : Option Bool :=
  if ["true", "on", "yes"].contains word then some true
  else if ["false", "off", "no"].contains word then some false
  else none

/-- A value as truth value: numbers are true unless zero. -/
def asFlag? : Setting → Option Bool
  | flag b => some b
  | integer i => some (i != 0)
  | real x => some (!x.isZero)
  | text s =>
    let word := Text.asciiLower s
    if word == "1" then some true else if word == "0" then some false else truthOf? word
  | nothing | list _ | table _ => none

/-- A value as text. -/
def asText? : Setting → Option String
  | text s => some s
  | flag b => some (if b then "true" else "false")
  | integer i => some (Text.ofInt i)
  | real x => some x.text
  | nothing | list _ | table _ => none

/-- A value as a count: fractions are rounded, and words for yes and no count one and zero. -/
def asCount? : Setting → Option Nat
  | integer i => if 0 ≤ i then some i.toNat else none
  | flag b => some (if b then 1 else 0)
  | real x => some x.toUnsigned
  | text s => match truthOf? (Text.asciiLower s) with
    | some b => some (if b then 1 else 0)
    | none => Text.readUnsigned? s.toList
  | nothing | list _ | table _ => none

/-- A value as a list of texts. -/
def asTexts? : Setting → Option (List String)
  | list items => items.mapM asText?
  | _ => none

/-- A value as named members: a table, or a list of the members in their order. -/
def asMembers? (names : List String) : Setting → Option (List (String × Setting))
  | table ms => some ms
  | list items => some (names.zip items)
  | _ => none

/-! ### Merging -/

mutual

/-- A value put over another one: tables are merged, every other value replaces what is below. -/
def laidOver : Setting → Setting → Setting
  | table ms, below => table (membersLaidOver ms below.members)
  | v, _ => v

/-- Members put over others, one by one. -/
def membersLaidOver : List (String × Setting) → List (String × Setting) → List (String × Setting)
  | [], below => below
  | (key, v) :: rest, below =>
    membersLaidOver rest (Keyed.insert key (v.laidOver ((below.lookup key).getD nothing)) below)

end

end Setting

end Newswire
