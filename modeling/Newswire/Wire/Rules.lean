import Newswire.Rule.Basic
import Newswire.Wire.Decoder

/-!
# Conditions and rules as documents

A condition and a rule are written with all their members; a clause leaves its empty sets out.
Reading is more generous: identifiers may be numbers, names may be missing, and the times of a
rule are `now` unless they are given.
-/

namespace Newswire

namespace Decoder

/-- An operator by its word. -/
def operator : Decoder Operator := fun room d => do
  let word ← text room d
  match Operator.ofName? word with
  | some op => return op
  | none => throw (.badOperator word)

/-- A set of identifiers. -/
def identifierSet : Decoder IdSet := fun room d => IdSet.ofList <$> identifiers room d

end Decoder

namespace Condition

/-- A condition as a document. -/
def toJson (c : Condition) : Json :=
  .obj [("_id", .str c.id), ("field", .str c.field), ("name", .str c.name),
    ("operator", .str c.operator.name), ("value", .str c.value)]

/-- The members of a condition. -/
def record : Record Condition :=
  Condition.mk <$> .required "_id" Decoder.identifier <*> .withDefault "name" "" Decoder.text <*>
    .required "field" Decoder.text <*> .required "operator" Decoder.operator <*>
    .required "value" Decoder.text

/-- Read a condition. -/
def decoder : Decoder Condition := record.decoder

end Condition

namespace Clause

/-- A member that holds a set of identifiers, unless the set is empty. -/
def setMember (key : String) (ids : IdSet) : List (String × Json) :=
  if ids.isEmpty then [] else [(key, .strings ids.toList)]

/-- A clause as a document. -/
def toJson (c : Clause) : Json := .obj (setMember "fc" c.conditions ++ setMember "pf" c.parents)

/-- Read a clause. -/
def decoder : Decoder Clause := Record.decoder <|
  Clause.mk <$> .withDefault "fc" ∅ Decoder.identifierSet <*>
    .withDefault "pf" ∅ Decoder.identifierSet

/-- A clause as an entry of a rule. -/
def entry (c : Clause) : Json := .obj [("expression", c.toJson)]

/-- Read an entry of a rule. -/
def entryDecoder : Decoder Clause := Record.decoder (.required "expression" decoder)

end Clause

namespace Rule

/-- A rule as a document. -/
def toJson (r : Rule) : Json :=
  .obj [("_id", .str r.id), ("content_filter", .arr (r.clauses.map Clause.entry)),
    ("created_at", .str r.createdAt.text), ("name", .str r.name),
    ("revision", .ofNat r.revision.toNat), ("updated_at", .str r.updatedAt.text)]

/-- The members of a rule. -/
def record (now : Timestamp) : Record Rule :=
  Rule.mk <$> .required "_id" Decoder.identifier <*> .required "name" Decoder.text <*>
    .required "content_filter" (Decoder.list Clause.entryDecoder) <*>
    .withDefault "revision" 0 (fun room d => UInt64.ofNat <$> Decoder.count room d) <*>
    .withDefault "created_at" now Decoder.timestamp <*>
    .withDefault "updated_at" now Decoder.timestamp

/-- Read a rule. -/
def decoder (now : Timestamp) : Decoder Rule := (record now).decoder

end Rule

end Newswire
