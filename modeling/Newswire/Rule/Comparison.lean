import Newswire.Json.Path
import Newswire.Rule.Condition
import Newswire.Schema

/-!
# Comparing the values of a field with a condition

`Operator.accepts` decides a comparison on the candidates, the values that were found for a field.
A field without any scalar value satisfies no comparison, not even `notIn`.  `Condition.holds`
finds the candidates of a condition's field in an item and decides.
-/

namespace Newswire

/-- Some candidate is a scalar. -/
def isPresent (candidates : List Json) : Bool := candidates.any Json.isScalar

/-- Some candidate is a text in which the pattern is found without regard to case. -/
def anyTextFinds (pattern : String) (candidates : List Json) : Bool :=
  match Text.Pattern.read? pattern.toList with
  | some p => candidates.any fun c => match c with
    | .str s => p.found true s
    | _ => false
  | none => false

/-- A candidate equals a value: a text exactly, a number if the value denotes it. -/
def equalsValue (value : String) (candidate : Json) : Bool :=
  match candidate with
  | .str s => s == value
  | .num n => match Double.read? (Text.trimChars value.toList) with
    | some d => n.toDouble.near d
    | none => false
  | _ => false

/-- Some candidate equals an entry of a list value. -/
def anyInList (kind : ValueKind) (value : String) (candidates : List Json) : Bool :=
  let entries := listEntries value
  match kind with
  | .number =>
    let numbers := entries.filterMap fun e => Double.read? e.toList
    candidates.any fun c => match c with
      | .num n => numbers.any fun d => n.toDouble.near d
      | _ => false
  | .text => entries.any fun e => anyTextFinds (exactPattern e) candidates

/-- The comparison of the candidates with a value holds. -/
def Operator.accepts (op : Operator) (kind : ValueKind) (value : String)
    (candidates : List Json) : Bool :=
  isPresent candidates &&
    match op with
    | like | startsWith | endsWith => match op.pattern? value with
      | some pattern => anyTextFinds pattern candidates
      | none => false
    | eq => candidates.any (equalsValue value)
    | isIn => anyInList kind value candidates
    | notIn => !anyInList kind value candidates

/-- The codes of the tags of an item that belong to a vocabulary. -/
def FieldLayout.codes (layout : FieldLayout) (scheme : String) (item : Json) : List Json :=
  match item.fieldAt layout.tagArray with
  | some (.arr tags) =>
    (tags.filter fun tag => (tag.get? layout.schemeKey).bind Json.text? == some scheme).flatMap
      (Json.valuesAt layout.codeKey)
  | _ => []

/-- The values of an item for a kind of field. -/
def FieldKind.candidates (kind : FieldKind) (layout : FieldLayout) (item : Json) : List Json :=
  match kind with
  | plain path _ => item.valuesAt path
  | freeText key => item.valuesAt (layout.customPath key)
  | vocabulary scheme => layout.codes scheme item

/-- A condition holds of an item. -/
def Condition.holds (schema : Schema) (c : Condition) (item : Json) : Bool :=
  let kind := schema.resolve c.field
  c.operator.accepts kind.values c.value (kind.candidates schema.layout item)

end Newswire
