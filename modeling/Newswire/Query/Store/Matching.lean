import Newswire.Query.Matcher

/-!
# Documents that satisfy a store query

`StoreQuery.matcher` runs a store query.  The members of a query are decided in their order; a
member is a combination of queries, or a path with either one scalar or an object of operators.
-/

namespace Newswire

namespace StoreQuery

/-- A text at a path has a written pattern, with its options. -/
def patternMatcher (path : String) (pattern : Json) (options : Option Json) : Matcher :=
  let ignoreCase := ((options.bind Json.text?).map fun o => o.toList.contains 'i').getD false
  match pattern with
  | .str p => .someFound path ignoreCase p
  | _ => .fail (.needsText "$regex")

/-- A value at a path equals an entry of a list, or is a text with the pattern of the entry. -/
def entryMatcher (path : String) (entry : Json) : Matcher :=
  match entry.get? "$regex" with
  | some pattern => patternMatcher path pattern (entry.get? "$options")
  | none => .someValue path fun v => v.sameScalar entry

/-- A value is of the type with this name. -/
def hasType (v : Json) (name : String) : Bool :=
  match v with
  | .str _ => name == "string"
  | .num _ => name == "number"
  | .bool _ => name == "bool"
  | .obj _ => name == "object"
  | .arr _ => name == "array"
  | .null => name == "null"

/-- A value at a path is of one of the named types. -/
def typeMatcher (path : String) (names : Json) : Matcher :=
  match names with
  | .str name => .someValue path fun v => hasType v name
  | .arr names => .someValue path fun v => (names.filterMap Json.text?).any (hasType v)
  | _ => .fail (.needsTextOrArray "$type")

/-- The values at a path satisfy an operator that looks at them one by one. -/
def operatorMatcher (path : String) (options : Option Json) (op : String) (arg : Json) : Matcher :=
  match op, arg with
  | "$options", _ => .test fun _ => true
  | "$regex", pattern => patternMatcher path pattern options
  | "$eq", value => .someValue path fun v => v.sameScalar value
  | "$in", .arr entries => .any (entries.map (entryMatcher path))
  | "$nin", .arr entries => .not (.any (entries.map (entryMatcher path)))
  | "$in", _ | "$nin", _ => .fail (.needsArray op)
  | "$type", names => typeMatcher path names
  | "$exists", wanted => .test fun doc =>
    (doc.valuesAt path).any Json.isScalar == wanted.bool?.getD true
  | _, _ => .fail (.fieldOperator op)

/-- Some array at a path has an object that satisfies a query by itself.  All arrays are looked at,
each up to the first such object. -/
def elementMatcher (path : String) (m : Matcher) : Matcher := fun doc => do
  let found ← (doc.rawValuesAt path).mapM fun v => m.onSome (Matcher.elements v)
  return found.any id

/-- The operand of a path is made of operators. -/
def isOperators (members : List (String × Json)) : Bool :=
  !members.isEmpty && members.all fun (key, _) => key.startsWith "$"

mutual

/-- The documents that satisfy a query. -/
def matcher : Json → Matcher
  | .obj members => .all (clauses members)
  | q => .fail (.notAnObject q)

/-- The documents that satisfy each of several queries. -/
def matchers : List Json → List Matcher
  | [] => []
  | q :: rest => matcher q :: matchers rest

/-- The documents that satisfy each of the members of a query. -/
def clauses : List (String × Json) → List Matcher
  | [] => []
  | (key, operand) :: rest =>
    let clause : Matcher :=
      if key.startsWith "$" then
        match key, operand with
        | "$and", .arr qs => .all (matchers qs)
        | "$or", .arr qs => .any (matchers qs)
        | "$nor", .arr qs => .not (.any (matchers qs))
        | "$and", _ | "$or", _ | "$nor", _ => .fail (.needsArray key)
        | _, _ => .fail (.clauseOperator key)
      else
        match operand with
        | .obj members =>
          if isOperators members then .all (operators key (members.lookup "$options") members)
          else .someValue key fun v => v.sameScalar operand
        | _ => .someValue key fun v => v.sameScalar operand
    clause :: clauses rest

/-- The documents whose values at a path satisfy each of the operators. -/
def operators (path : String) (options : Option Json) : List (String × Json) → List Matcher
  | [] => []
  | (op, arg) :: rest =>
    (if op = "$elemMatch" then elementMatcher path (matcher arg)
      else operatorMatcher path options op arg) :: operators path options rest

end

end StoreQuery

end Newswire
