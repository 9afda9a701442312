import Newswire.Json.Basic

/-!
# Items

A content item is any document.  Its identity, if it has one, is the first of the members `_id`
and `guid` that is a number or a text that is not empty.
-/

namespace Newswire

namespace Item

/-- A value that serves as an identity: a text that is not empty, or a number by its text. -/
def identity? : Json → Option String
  | .str s => if s.isEmpty then none else some s
  | .num n => some n.text
  | _ => none

/-- The identity of an item. -/
def id? (item : Json) : Option String :=
  ["_id", "guid"].findSome? fun key => (item.get? key).bind identity?

end Item

end Newswire
