import Newswire.Query.Matcher
import Newswire.Rule.Operator
import Newswire.Text.Glob

/-!
# Documents that satisfy a search query

`SearchQuery.matcher` runs a search query.  Of a combination the required parts are decided first,
then the excluded ones, then the optional ones until enough of them are satisfied.
-/

namespace Newswire

namespace SearchQuery

/-- What the values at a path are compared with. -/
structure Operand where
  /-- The path. -/
  path : String
  /-- The value. -/
  value : Json
  /-- Capitals and small letters are the same. -/
  ignoreCase : Bool

/-- The member of a body that has to have exactly one. -/
def onlyMember (body : Json) : Except QueryFault (String × Json) :=
  match body with
  | .obj [member] => .ok member
  | _ => .error (.notOneMember body)

/-- The operand that a body writes, with options or as the bare value. -/
def operandOf (body : Json) : Except QueryFault Operand := do
  let (path, params) ← onlyMember body
  match params with
  | .obj _ => match params.get? "value" with
    | some v => return ⟨path, v, ((params.get? "case_insensitive").bind Json.bool?).getD false⟩
    | none => throw .missingValue
  | v => return ⟨path, v, false⟩

/-- A matcher made of parts of the body; without them the query is at fault. -/
def ofParts (m : Except QueryFault Matcher) : Matcher :=
  match m with
  | .ok m => m
  | .error fault => .fail fault

/-- Some value equals the operand. -/
def termMatcher (body : Json) : Matcher := ofParts do
  let q ← operandOf body
  return match q.value, q.ignoreCase with
    | .str s, true => .someFound q.path true (exactPattern s)
    | v, _ => .someValue q.path fun c => c.sameScalar v

/-- Some value equals an entry of the operand. -/
def termsMatcher (body : Json) : Matcher := ofParts do
  let (path, values) ← onlyMember body
  match values with
  | .arr values => return .someValue path fun c => values.any c.sameScalar
  | _ => throw (.needsArray "terms")

/-- The pattern of the texts that follow a wildcard pattern. -/
def wildcardPattern (glob : String) : String := String.ofList (Text.Glob.toPattern glob.toList)

/-- The pattern of the texts that begin with a value. -/
def startPattern (value : String) : String :=
  String.ofList ('^' :: Text.Pattern.escape value.toList)

/-- Some text has the pattern that the operand, a text, is written as. -/
def textMatcher (kind : String) (write : String → String) (body : Json) : Matcher :=
  ofParts do
    let q ← operandOf body
    match q.value with
    | .str s => return .someFound q.path q.ignoreCase (write s)
    | _ => throw (.needsText kind)

/-- Some value at the named path is a scalar. -/
def existsMatcher (body : Json) : Matcher :=
  match (body.get? "field").bind Json.text? with
  | some path => .someValue path Json.isScalar
  | none => .fail (.needsMember "exists" "field")

/-- Some object of an array at a path satisfies a query when it stands at the path by itself. -/
def nestedMatcher (path : Option String) (m : Option Matcher) : Matcher :=
  match path, m with
  | none, _ => .fail (.needsMember "nested" "path")
  | _, none => .fail (.needsMember "nested" "query")
  | some path, some m => fun doc =>
    m.onSome (((doc.rawValuesAt path).flatMap Matcher.elements).map (Json.rooted path))

/-- A combination of queries by section.  At least one optional query has to be satisfied unless
others are required or the number is given. -/
def combined (members : List (String × Json)) (sections : List (String × List Matcher)) : Matcher :=
  let part (key : String) : List Matcher := (sections.lookup key).getD []
  let hasRequired := (members.lookup "must").isSome || (members.lookup "filter").isSome
  let minimum := ((members.lookup "minimum_should_match").bind Json.nat?).getD
    (if hasRequired then 0 else 1)
  let should := part "should"
  .all [.all (part "must"), .all (part "filter"), .not (.any (part "must_not")),
    if should.isEmpty then .test fun _ => true else .atLeast minimum should]

mutual

/-- The documents that satisfy a query. -/
def matcher : Json → Matcher
  | .obj [(kind, body)] =>
    match kind with
    | "match_all" => .test fun _ => true
    | "bool" => match body with
      | .obj members => combined members (sections members)
      | _ => .fail (.needsObject "bool")
    | "term" => termMatcher body
    | "terms" => termsMatcher body
    | "wildcard" => textMatcher kind wildcardPattern body
    | "prefix" => textMatcher kind startPattern body
    | "exists" => existsMatcher body
    | "nested" => match body with
      | .obj members =>
        nestedMatcher ((body.get? "path").bind Json.text?) ((matchersByKey members).lookup "query")
      | _ => nestedMatcher none none
    | _ => .fail (.searchKind kind)
  | q => .fail (.notOneMember q)

/-- The documents that satisfy each of several queries. -/
def matchers : List Json → List Matcher
  | [] => []
  | q :: rest => matcher q :: matchers rest

/-- The documents that satisfy the query in each member. -/
def matchersByKey : List (String × Json) → List (String × Matcher)
  | [] => []
  | (key, q) :: rest => (key, matcher q) :: matchersByKey rest

/-- The documents that satisfy the queries in each member, which holds a list of them or one. -/
def sections : List (String × Json) → List (String × List Matcher)
  | [] => []
  | (key, part) :: rest =>
    let single := matcher part
    let ms := match part with
      | .arr qs => matchers qs
      | .obj _ => [single]
      | _ => []
    (key, ms) :: sections rest

end

end SearchQuery

end Newswire
