import Newswire.Rule.Comparison

/-!
# Conditions that may hold together

`Condition.overlaps` tells from the values of two conditions on one field whether they may select
common items.  Text operators overlap only with the same operator and value; otherwise the lists
of accepted or refused values are compared.
-/

namespace Newswire

/-- Two values are the same: as numbers, or as texts without regard to case. -/
def sameValue (kind : ValueKind) (a b : String) : Bool :=
  match kind with
  | .number =>
    match Double.read? (Text.trimChars a.toList), Double.read? (Text.trimChars b.toList) with
    | some x, some y => x.near y
    | _, _ => false
  | .text => caselessEqual a b

/-- A value is the same as an entry of a list. -/
def containsValue (kind : ValueKind) (entries : List String) (value : String) : Bool :=
  entries.any fun entry => sameValue kind entry value

/-- The two conditions may hold together. -/
def Condition.overlaps (kind : ValueKind) (query stored : Condition) : Bool :=
  query.field == stored.field &&
    if query.operator.isPattern || stored.operator.isPattern then
      query.operator == stored.operator && sameValue .text query.value stored.value
    else
      match query.operator == .notIn, stored.operator == .notIn with
      | false, false => query.values.any (containsValue kind stored.values)
      | false, true => query.values.any fun v => !containsValue kind stored.values v
      | true, false => stored.values.any fun v => !containsValue kind query.values v
      | true, true => true

end Newswire
