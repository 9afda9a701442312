import Newswire.Rulebook.Basic
import Newswire.Schema

/-!
# Compiling rules to queries

Rules are compiled to two kinds of queries, which differ in how conditions, conjunctions and
disjunctions are written.  `Target` holds these ways of writing, and `Rulebook.compile` walks a
rule for any target.  Unlike evaluation it visits everything, so whatever is missing or wrong
anywhere in the rule is found.
-/

namespace Newswire

/-- How queries of one kind are written. -/
structure Target where
  /-- The query that everything satisfies. -/
  everything : Json
  /-- The conjunction of queries. -/
  all : List Json → Json
  /-- The disjunction of queries. -/
  any : List Json → Json
  /-- The query of a condition on a kind of field. -/
  condition : FieldLayout → FieldKind → Condition → Except RuleError Json

/-- A conjunction or disjunction of one query is that query. -/
def unlessSingle (write : List Json → Json) : List Json → Json
  | [q] => q
  | qs => write qs

/-- The number that a condition's value denotes: an integer if it is written as one and in range,
else a double. -/
def numberOf? (value : String) : Option Number :=
  let cs := Text.trimChars value.toList
  match Text.readSigned? cs with
  | some i => some (.int i)
  | none => (Double.read? cs).map .real

/-- The entries of a list condition; there have to be some, and on a numeric field each has to
denote a number. -/
def Condition.entriesFor (c : Condition) (kind : ValueKind) (target : QueryKind) :
    Except RuleError (List String) :=
  let entries := c.values
  if entries.isEmpty then .error (.invalidCondition c.id .noEntries)
  else match kind with
    | .text => .ok entries
    | .number => match entries.find? fun e => (numberOf? e).isNone with
      | some bad => .error (.inexpressible c.id target c.field bad)
      | none => .ok entries

/-- The value of a text condition, which must not be empty. -/
def Condition.patternValue (c : Condition) : Except RuleError String :=
  if c.value.isEmpty then .error (.invalidCondition c.id .missingValue) else .ok c.value

namespace Rulebook

variable (b : Rulebook) (schema : Schema) (target : Target)

/-- The query of a saved condition; what its field means is looked up now. -/
def compileCondition (id : String) : Except RuleError Json := do
  let c ← b.condition id
  target.condition schema.layout (schema.resolve c.field) c

/-- The queries of the clauses of a rule; the walk is already inside the rule. -/
def compileClauses (path : VisitPath) (r : Rule) : Except RuleError (List Json) :=
  r.clauses.zipIdx.mapM fun (clause, index) => do
    if clause.isEmpty then throw (.emptyClause r.id index)
    let conditions ← clause.conditions.toList.mapM (b.compileCondition schema target)
    let parents ← clause.parents.toList.mapM fun id =>
      match _hr : b.rules.get? id with
      | none => throw (.ruleNotFound id)
      | some parent =>
        if parent.clauses.isEmpty then throw (.emptyRule parent.id)
        else match _hq : path.enter parent.id with
          | .error e => throw e
          | .ok inside => target.any <$> compileClauses inside parent
    return target.all (conditions ++ parents)
termination_by b.unvisited path
decreasing_by exact unvisited_enter_lt _hr _hq

/-- The query of a rule on a walk that comes to it from outside. -/
def compileFrom (path : VisitPath) (r : Rule) : Except RuleError Json := do
  if r.clauses.isEmpty then throw (.emptyRule r.id)
  let inside ← path.enter r.id
  target.any <$> b.compileClauses schema target inside r

/-- The query of a rule; without a rule the query that everything satisfies. -/
def compile (r : Option Rule) : Except RuleError Json :=
  match r with
  | some r => b.compileFrom schema target .empty r
  | none => return target.everything

end Rulebook

end Newswire
