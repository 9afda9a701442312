import Newswire.Distribution
import Newswire.Schema
import Newswire.Wire.Decoder

/-!
# Products, subscribers, routes and vocabularies as documents

All are written with all their members.  Reading takes the identifier, and sensible values for
what is missing.
-/

namespace Newswire

namespace Admission

/-- What stands there is not a kind of admission: in a text a fault of the text, in a document a
value of the wrong shape. -/
def misplaced (room : Draft.Room) : DecodeError :=
  if room.isSome then .broken .malformed else .shape

/-- The kind of admission with a word. -/
def named (word : String) : Except DecodeError Admission :=
  match ofName? word with
  | some a => .ok a
  | none => .error .shape

/-- Read a kind of admission: its word, or an object with the word as its only key and the empty
value behind it. -/
def decoder : Decoder Admission := fun room d =>
  match d with
  | .str word => named word
  | .fault f => .error (.broken f.chosen)
  | .obj members stop => do
    discard <| Decoder.orBroken room.enter
    match members, stop with
    | [], none => throw (misplaced room)
    | [], some f => throw (.broken f.chosen)
    | (none, _) :: _, _ => throw (.broken .malformed)
    | (some word, content) :: more, stop =>
      let a ← named word
      match content, more, stop with
      | .null, [], none => return a
      | .null, [], some f => throw (.broken f.chosen)
      | .null, _ :: _, _ => throw (misplaced room)
      | content, _, _ => Decoder.reject content
  | _ => .error (misplaced room)

end Admission

namespace ProductRule

/-- The rule of a product as a document. -/
def toJson (p : ProductRule) : Json :=
  .obj [("filter_id", .str p.ruleId), ("filter_type", .str p.admission.name)]

/-- Read the rule of a product. -/
def decoder : Decoder ProductRule := Record.decoder <|
  ProductRule.mk <$> .required "filter_id" Decoder.identifier <*>
    .required "filter_type" Admission.decoder

end ProductRule

namespace Product

/-- A product as a document. -/
def toJson (p : Product) : Json :=
  .obj [("_id", .str p.id), ("content_filter", (p.rule.map ProductRule.toJson).getD .null),
    ("name", .str p.name)]

/-- Read a product. -/
def decoder : Decoder Product := Record.decoder <|
  Product.mk <$> .required "_id" Decoder.identifier <*> .withDefault "name" "" Decoder.text <*>
    .withDefault "content_filter" none (Decoder.optional ProductRule.decoder)

end Product

namespace Subscriber

/-- A subscriber as a document. -/
def toJson (s : Subscriber) : Json :=
  .obj [("_id", .str s.id), ("is_active", .bool s.isActive), ("name", .str s.name),
    ("products", .strings s.products)]

/-- Read a subscriber. -/
def decoder : Decoder Subscriber := Record.decoder <|
  Subscriber.mk <$> .required "_id" Decoder.identifier <*> .withDefault "name" "" Decoder.text <*>
    .withDefault "products" [] Decoder.identifiers <*> .withDefault "is_active" true Decoder.flag

end Subscriber

namespace Route

/-- A route as a document. -/
def toJson (r : Route) : Json :=
  .obj [("_id", .str r.id), ("filter", .ofText? r.ruleId), ("name", .str r.name)]

/-- Read a route. -/
def decoder : Decoder Route := Record.decoder <|
  Route.mk <$> .required "_id" Decoder.identifier <*> .withDefault "name" "" Decoder.text <*>
    .withDefault "filter" none Decoder.optionalIdentifier

end Route

namespace Term

/-- A term as a document. -/
def toJson (t : Term) : Json :=
  .obj [("is_active", .bool t.isActive), ("name", .str t.name), ("qcode", .str t.qcode)]

/-- Read a term. -/
def decoder : Decoder Term := Record.decoder <|
  Term.mk <$> .required "name" Decoder.text <*> .required "qcode" Decoder.text <*>
    .withDefault "is_active" true Decoder.flag

end Term

namespace Vocabulary

/-- A vocabulary as a document. -/
def toJson (v : Vocabulary) : Json :=
  .obj [("_id", .str v.id), ("display_name", .str v.displayName),
    ("field_type", .ofText? v.fieldType), ("items", .arr (v.items.map Term.toJson))]

/-- Read a vocabulary. -/
def decoder : Decoder Vocabulary := Record.decoder <|
  Vocabulary.mk <$> .required "_id" Decoder.text <*> .withDefault "display_name" "" Decoder.text <*>
    .withDefault "field_type" none (Decoder.optional Decoder.text) <*>
    .withDefault "items" [] (Decoder.list Term.decoder)

end Vocabulary

end Newswire
