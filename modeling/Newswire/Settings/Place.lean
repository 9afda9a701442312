import Newswire.Settings.Value
import Newswire.Text.Blank
import Newswire.Text.Digits

/-!
# Places in settings

A key in a file or the name of a variable may write a place deep inside the settings: words with
dots between them, and positions of lists in brackets.  `Setting.put` puts a value there.  What is
missing on the way is made, and what is in the way is replaced; a list is made long enough for any
position (`Setting.reach_index_lt`).
-/

namespace Newswire

/-- A step from a value to one inside it. -/
inductive SettingStep where
  /-- To the member of a table. -/
  | member (key : String)
  /-- To the item of a list; negative positions count from the end. -/
  | item (position : Int)
  deriving DecidableEq, Repr

namespace SettingStep

/-- Characters of a word in a place. -/
def isWordChar (c : Char) : Bool := c.isAlphanum || c == '_' || c == '-'

/-- Blanks around a position. -/
def isBlank (c : Char) : Bool := c == ' ' || c == '\t'

/-- The position that a text writes, with blanks around it. -/
def position? (cs : List Char) : Option Int :=
  let cs := ((cs.dropWhile isBlank).reverse.dropWhile isBlank).reverse
  if cs.head? == some '+' then none else Text.readSigned? cs

/-- The steps that a text writes: a dot and a word, or a position in brackets, each. -/
def list? (cs : List Char) : Option (List SettingStep) :=
  match cs with
  | [] => some []
  | '.' :: rest =>
    let word := rest.takeWhile isWordChar
    if word.isEmpty then none
    else (list? (rest.dropWhile isWordChar)).map (member (String.ofList word) :: ·)
  | '[' :: rest =>
    match _h : rest.dropWhile (· != ']') with
    | [] => none
    | _ :: more => do
      let position ← position? (rest.takeWhile (· != ']'))
      return item position :: (← list? more)
  | _ => none
termination_by cs.length
decreasing_by
  · exact Nat.lt_succ_of_le (List.dropWhile_suffix _).length_le
  · have := (List.dropWhile_suffix (l := rest) (· != ']')).length_le
    rw [_h] at this
    simp only [List.length_cons] at this ⊢
    omega

/-- The steps that a key writes.  A key that does not write any is a word by itself. -/
def ofKey (key : String) : List SettingStep :=
  (list? ('.' :: key.toList)).getD [member key]

end SettingStep

namespace Setting

/-- The items with empty ones added until a position is among them, and the position counted from
the front.  A position before the first item makes room in front. -/
def reach (position : Int) (items : List Setting) : List Setting × Nat :=
  let fromEnd := position.natAbs
  if 0 ≤ position then
    (items ++ List.replicate (position.toNat + 1 - items.length) nothing, position.toNat)
  else if fromEnd ≤ items.length then (items, items.length - fromEnd)
  else (List.replicate (fromEnd - items.length) nothing ++ items, 0)

theorem reach_index_lt (position : Int) (items : List Setting) :
    (reach position items).2 < (reach position items).1.length := by
  simp only [reach]
  split
  · simp only [List.length_append, List.length_replicate]
    omega
  · split
    · exact Nat.sub_lt (by omega) (by omega)
    · simp only [List.length_append, List.length_replicate]
      omega

/-- A value put over the one at a place. -/
def put (v : Setting) : List SettingStep → Setting → Setting
  | [], below => v.laidOver below
  | .member key :: rest, below =>
    table (Keyed.insert key (put v rest ((below.members.lookup key).getD nothing)) below.members)
  | .item position :: rest, below =>
    let (items, index) := reach position below.items
    list (items.modify index (put v rest))

end Setting

end Newswire
