import Newswire.Desk.Bundle
import Newswire.Wire.Distribution
import Newswire.Wire.Rules

/-!
# Bundles as documents

Every list may be missing.
-/

namespace Newswire

namespace Bundle

/-- Read a bundle; rules without times are from `now`. -/
def decoder (now : Timestamp) : Decoder Bundle :=
  let lists {α : Type} (name : String) (item : Decoder α) : Record (List α) :=
    .withDefault name [] (Decoder.list item)
  Record.decoder <|
    Bundle.mk <$> lists "vocabularies" Vocabulary.decoder <*>
      lists "conditions" Condition.decoder <*> lists "filters" (Rule.decoder now) <*>
      lists "products" Product.decoder <*> lists "subscribers" Subscriber.decoder <*>
      lists "routing_rules" Route.decoder <*> lists "items" Decoder.json

end Bundle

end Newswire
