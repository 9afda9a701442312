import Newswire.Query.Target
import Newswire.Text.Glob

/-!
# Queries of a search index

A search query is an object with one member, which names the kind of query and holds its body.
`bool` combines queries, `nested` looks at the tags one by one, so that vocabulary and code are
found in one tag, and the others look at the values at a path.
-/

namespace Newswire

namespace SearchQuery

/-- The query that every document satisfies. -/
def everything : Json := .obj [("match_all", .obj [])]

/-- All queries are satisfied. -/
def all (qs : List Json) : Json := .obj [("bool", .obj [("must", .arr qs)])]

/-- Some query is satisfied. -/
def any (qs : List Json) : Json :=
  .obj [("bool", .obj [("minimum_should_match", .ofInt 1), ("should", .arr qs)])]

/-- One query is satisfied and another is not. -/
def butNot (must mustNot : Json) : Json :=
  .obj [("bool", .obj [("must", .arr [must]), ("must_not", .arr [mustNot])])]

/-- A comparison of some kind with a value, without regard to case. -/
def caseless (kind path value : String) : Json :=
  .obj [(kind, .obj [(path, .obj [("case_insensitive", .bool true), ("value", .str value)])])]

/-- Some value follows a wildcard pattern, without regard to case. -/
def wildcard (path pattern : String) : Json := caseless "wildcard" path pattern

/-- Some value begins with a text, without regard to case. -/
def beginsWith (path value : String) : Json := caseless "prefix" path value

/-- Some value equals a text, without regard to case. -/
def sameText (path value : String) : Json := caseless "term" path value

/-- Some value equals a scalar. -/
def term (path : String) (value : Json) : Json :=
  .obj [("term", .obj [(path, .obj [("value", value)])])]

/-- Some value equals one of several scalars. -/
def terms (path : String) (values : List Json) : Json :=
  .obj [("terms", .obj [(path, .arr values)])]

/-- Some value is a scalar. -/
def present (path : String) : Json := .obj [("exists", .obj [("field", .str path)])]

/-- Some item of the array at a path satisfies the query by itself. -/
def nested (path : String) (query : Json) : Json :=
  .obj [("nested", .obj [("path", .str path), ("query", query)])]

/-- The query accepts every document by its kind. -/
def isEverything (q : Json) : Bool := (q.get? "match_all").isSome

/-- A wildcard pattern that takes a value literally, open at the end or not. -/
def globOf (value : String) (openEnd : Bool) : String :=
  String.ofList ('*' :: (Text.Glob.escape value.toList ++ if openEnd then ['*'] else []))

/-- Some value at a path is in the list of a condition. -/
def inList (path : String) (kind : ValueKind) (c : Condition) : Except RuleError Json := do
  let entries ← c.entriesFor kind .search
  return match kind with
    | .number => terms path (entries.filterMap fun e => (numberOf? e).map .num)
    | .text => any (entries.map (sameText path))

/-- The query of a condition on the values at a path; `notIn` is written as `isIn`, to be turned
round. -/
def operand (path : String) (kind : ValueKind) (c : Condition) : Except RuleError Json :=
  match c.operator with
  | .like => do return wildcard path (globOf (← c.patternValue) true)
  | .startsWith => do return beginsWith path (← c.patternValue)
  | .endsWith => do return wildcard path (globOf (← c.patternValue) false)
  | .eq =>
    let exact := term path (.str c.value)
    return match numberOf? c.value with
      | some n => any [exact, term path (.num n)]
      | none => exact
  | .isIn | .notIn => inList path kind c

/-- The query of a condition on the values at a path. -/
def onPath (path : String) (kind : ValueKind) (c : Condition) : Except RuleError Json :=
  match c.operator with
  | .notIn => do return butNot (present path) (← inList path kind c)
  | _ => operand path kind c

/-- Some tag belongs to a vocabulary and satisfies the query. -/
def someTag (layout : FieldLayout) (scheme : String) (code : Json) : Json :=
  nested layout.tagArray (all [term layout.schemePath (.str scheme), code])

/-- The query of a condition on the codes of a vocabulary. -/
def onTags (layout : FieldLayout) (scheme : String) (c : Condition) : Except RuleError Json := do
  let code ← operand layout.codePath .text c
  return match c.operator with
    | .notIn =>
      butNot (someTag layout scheme (present layout.codePath)) (someTag layout scheme code)
    | _ => someTag layout scheme code

/-- The query of a condition. -/
def condition (layout : FieldLayout) (kind : FieldKind) (c : Condition) :
    Except RuleError Json :=
  match kind with
  | .vocabulary scheme => onTags layout scheme c
  | .plain path values => onPath path values c
  | .freeText key => onPath (layout.customPath key) .text c

/-- How search queries are written. -/
def target : Target := ⟨everything, unlessSingle all, unlessSingle any, condition⟩

end SearchQuery

end Newswire
