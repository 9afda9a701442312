import Newswire.Rule.Operator

/-!
# Conditions

A condition compares one field of an item with a value.
-/

namespace Newswire

/-- A saved comparison of one field with a value. -/
structure Condition where
  /-- Identifier. -/
  id : String
  /-- Name for people. -/
  name : String
  /-- The field that is compared. -/
  field : String
  /-- How it is compared. -/
  operator : Operator
  /-- What it is compared with. -/
  value : String
  deriving DecidableEq, Repr

namespace Condition

/-- The entries of a list operator's value, or the value itself. -/
def values (c : Condition) : List String :=
  if c.operator.isList then listEntries c.value else [c.value]

/-- A condition that is named by its identifier. -/
def ofParts (id field : String) (operator : Operator) (value : String) : Condition :=
  ⟨id, id, field, operator, value⟩

end Condition

end Newswire
