import Newswire.Json.Path
import Newswire.Rule.Error
import Newswire.Text.Pattern

/-!
# Running queries

A `Matcher` decides whether a document satisfies a query.  A query may be at fault in a part that
the decision on a document does not reach, so the faults stay inside: `Matcher.all` and
`Matcher.any` try their parts in order and stop at the first that decides.
-/

namespace Newswire

/-- A decision on documents, which may find the query at fault. -/
abbrev Matcher := Json → Except RuleError Bool

namespace Matcher

/-- The query is at fault here. -/
def fail (fault : QueryFault) : Matcher := fun _ => .error (.unsupportedQuery fault)

/-- A decision that finds no fault. -/
def test (p : Json → Bool) : Matcher := fun doc => .ok (p doc)

/-- Some value at a path passes a test. -/
def someValue (path : String) (p : Json → Bool) : Matcher :=
  test fun doc => (doc.valuesAt path).any p

/-- Some value at a path is a text that passes a test. -/
def someText (path : String) (p : String → Bool) : Matcher :=
  someValue path fun v => match v with
    | .str s => p s
    | _ => false

/-- Some value at a path is a text in which a written pattern is found; what is no pattern is at
fault. -/
def someFound (path : String) (ignoreCase : Bool) (pattern : String) : Matcher :=
  match Text.Pattern.read? pattern.toList with
  | some steps => someText path (steps.found ignoreCase)
  | none => fail (.badPattern pattern)

/-- The opposite decision. -/
def not (m : Matcher) : Matcher := fun doc => (!·) <$> m doc

/-- All decisions are positive. -/
def all : List Matcher → Matcher
  | [], _ => .ok true
  | m :: ms, doc => do if ← m doc then all ms doc else return false

/-- At least so many decisions are positive. -/
def atLeast : Nat → List Matcher → Matcher
  | 0, _, _ => .ok true
  | _ + 1, [], _ => .ok false
  | n + 1, m :: ms, doc => do if ← m doc then atLeast n ms doc else atLeast (n + 1) ms doc

/-- Some decision is positive. -/
def any (ms : List Matcher) : Matcher := atLeast 1 ms

/-- Some of the documents passes; they are tried in order. -/
def onSome (m : Matcher) : List Json → Except RuleError Bool
  | [] => .ok false
  | v :: vs => do if ← m v then return true else onSome m vs

/-- The objects among the items of a value, which has none unless it is an array. -/
def elements : Json → List Json
  | .arr items => items.filter Json.isObject
  | _ => []

end Matcher

end Newswire
