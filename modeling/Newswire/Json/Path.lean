import Newswire.Json.Basic
import Newswire.Text.Blank

/-!
# Dotted paths

A path names a place in a document by keys and array positions with dots between them.  It is
followed in two ways.

* `Json.valuesAt` follows it with fan-out: at an array, a key is looked up in every object of the
  array, and an array at the end is opened.  This is how both kinds of query read a field.
* `Json.fieldAt` follows exactly one place, so at an array only a position leads on.

`Json.rawValuesAt` is `valuesAt` except that an array at the end stays closed, and `Json.rooted`
puts a value back at the end of a path.
-/

namespace Newswire

/-- The segments of a dotted path. -/
abbrev Path := List String

/-- The segments between the dots of a text; the empty text has one empty segment. -/
def Path.read (path : String) : Path := Text.splitAt '.' path

/-- The array position that a segment writes. -/
def Path.position? (segment : String) : Option Nat := Text.readUnsigned? segment.toList

namespace Json

/-- The values that one segment leads to from a value. -/
def step (segment : String) (v : Json) : List Json :=
  match v with
  | obj _ => (v.get? segment).toList
  | arr items =>
    match Path.position? segment with
    | some i => items[i]?.toList
    | none => items.filterMap (get? segment)
  | _ => []

/-- The values at the end of a path, where an array stands for its items. -/
def walk : Path → Json → List Json
  | [], arr items => items
  | [], v => [v]
  | segment :: rest, v => (v.step segment).flatMap (walk rest)

/-- The values at a dotted path; the empty path leads to the document itself. -/
def valuesAt (path : String) (v : Json) : List Json :=
  walk (if path.isEmpty then [] else Path.read path) v

/-- The one value that a segment leads to, if any. -/
def child? (segment : String) : Json → Option Json
  | arr items => (Path.position? segment).bind fun i => items[i]?
  | v => v.get? segment

/-- The value at exactly one place, if the path leads there. -/
def fieldAt (path : String) (v : Json) : Option Json :=
  (Path.read path).foldlM (fun v segment => v.child? segment) v

/-- The values of the last segment's key in all objects that the rest of the path leads to. -/
def rawValuesAt (path : String) (v : Json) : List Json :=
  match Text.splitLast '.' path with
  | some (parent, last) => (v.valuesAt parent).filterMap (get? last)
  | none => (v.valuesAt "").filterMap (get? path)

/-- The document in which the path leads to `v` and to nothing else. -/
def rooted (path : String) (v : Json) : Json :=
  (Path.read path).foldr (fun segment inner => obj [(segment, inner)]) v

end Json

end Newswire
