import Newswire.Query.Target

/-!
# Queries of a document store

A store query is an object whose members are all required: `$and`, `$or` and `$nor` over lists of
queries, or a path with what its values have to satisfy.  Tags are matched with `$elemMatch`, so
that vocabulary and code are found in one tag.
-/

namespace Newswire

namespace StoreQuery

/-- The query that every document satisfies. -/
def everything : Json := .obj []

/-- All queries are satisfied. -/
def all (qs : List Json) : Json := .obj [("$and", .arr qs)]

/-- Some query is satisfied. -/
def any (qs : List Json) : Json := .obj [("$or", .arr qs)]

/-- No query is satisfied. -/
def noneOf (qs : List Json) : Json := .obj [("$nor", .arr qs)]

/-- The values at a path satisfy the operand. -/
def field (path : String) (operand : Json) : Json := .obj [(path, operand)]

/-- A pattern is found without regard to case. -/
def caseless (pattern : String) : Json := .obj [("$options", .str "i"), ("$regex", .str pattern)]

/-- Some value is in the list. -/
def isIn (entries : List Json) : Json := .obj [("$in", .arr entries)]

/-- No value is in the list. -/
def notIn (entries : List Json) : Json := .obj [("$nin", .arr entries)]

/-- Some value is a scalar. -/
def present : Json := .obj [("$type", .strings ["string", "number", "bool"])]

/-- Some item of an array satisfies the query. -/
def someItem (query : Json) : Json := .obj [("$elemMatch", query)]

/-- The query accepts every document by being empty. -/
def isEverything (q : Json) : Bool :=
  match q with
  | .obj [] => true
  | _ => false

/-- What the values of a list condition are compared with: numbers, or patterns of whole texts. -/
def entries (kind : ValueKind) (c : Condition) : Except RuleError (List Json) := do
  let entries ← c.entriesFor kind .store
  return match kind with
    | .number => entries.filterMap fun e => (numberOf? e).map .num
    | .text => entries.map fun e => caseless (exactPattern e)

/-- What the values of a field have to satisfy for a condition; `notIn` is written as `isIn`, to be
turned round. -/
def operand (kind : ValueKind) (c : Condition) : Except RuleError Json :=
  match c.operator with
  | .like | .startsWith | .endsWith => do
    let value ← c.patternValue
    return caseless ((c.operator.pattern? value).getD "")
  | .eq => return match numberOf? c.value with
    | some n => isIn [.str c.value, .num n]
    | none => .str c.value
  | .isIn | .notIn => isIn <$> entries kind c

/-- The query of a condition on the values at a path. -/
def onPath (path : String) (kind : ValueKind) (c : Condition) : Except RuleError Json :=
  match c.operator with
  | .notIn => do
    let entries ← entries kind c
    return all [field path present, field path (notIn entries)]
  | _ => field path <$> operand kind c

/-- Some tag belongs to a vocabulary and its code satisfies the operand. -/
def someTag (layout : FieldLayout) (scheme : String) (code : Json) : Json :=
  field layout.tagArray (someItem (.object [(layout.schemeKey, .str scheme),
    (layout.codeKey, code)]))

/-- The query of a condition on the codes of a vocabulary. -/
def onTags (layout : FieldLayout) (scheme : String) (c : Condition) : Except RuleError Json := do
  let code ← operand .text c
  return match c.operator with
    | .notIn => all [someTag layout scheme present, noneOf [someTag layout scheme code]]
    | _ => someTag layout scheme code

/-- The query of a condition. -/
def condition (layout : FieldLayout) (kind : FieldKind) (c : Condition) :
    Except RuleError Json :=
  match kind with
  | .vocabulary scheme => onTags layout scheme c
  | .plain path values => onPath path values c
  | .freeText key => onPath (layout.customPath key) .text c

/-- How store queries are written. -/
def target : Target := ⟨everything, unlessSingle all, unlessSingle any, condition⟩

end StoreQuery

end Newswire
