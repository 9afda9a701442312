import Newswire.Collection.Table
import Newswire.Item
import Newswire.Query.Matcher

/-!
# Stored items

An `Archive` keeps items by key and runs queries over them.  The key of an item is its identity, or
one that is made up for it (`Archive.madeKey`).
-/

namespace Newswire

/-- What a query finds. -/
structure Found where
  /-- The items, in the order of their keys. -/
  items : List Json
  /-- How many items there are. -/
  count : Nat

/-- The identities of the items that have one. -/
def Found.ids (f : Found) : List String := f.items.filterMap Item.id?

/-- The stored items. -/
structure Archive where
  /-- The items by key. -/
  items : Table Json
  /-- How many keys were made up. -/
  made : Nat
  deriving Inhabited

namespace Archive

/-- No items. -/
def empty : Archive := ⟨∅, 0⟩

instance : EmptyCollection Archive := ⟨empty⟩

/-- A key for an item without identity. -/
def madeKey (n : Nat) : String :=
  let digits := Text.natDigits n
  String.ofList ("00000000-0000-4000-8000-".toList ++
    List.replicate (12 - digits.length) '0' ++ digits)

/-- Store an item, in place of the one with its identity. -/
def insert (a : Archive) (item : Json) : Archive :=
  match Item.id? item with
  | some id => { a with items := a.items.insert id item }
  | none => ⟨a.items.insert (madeKey a.made) item, a.made + 1⟩

/-- The archive of some items. -/
def ofItems (items : List Json) : Archive := items.foldl insert ∅

/-- The item with a key. -/
def get? (a : Archive) (key : String) : Option Json := a.items.get? key

/-- Take the item with a key away. -/
def erase (a : Archive) (key : String) : Archive := { a with items := a.items.erase key }

/-- How many items there are. -/
def size (a : Archive) : Nat := a.items.size

/-- The items that satisfy a query. -/
def run (a : Archive) (m : Matcher) : Except RuleError Found := do
  let found ← a.items.entries.filterM fun (_, item) => m item
  return ⟨found.map (·.2), found.length⟩

end Archive

end Newswire
