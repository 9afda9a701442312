import Newswire.Collection.Table

/-!
# Where the fields of an item are found

A condition names a field.  `Schema.resolve` says what the name means: the identifier of a
vocabulary stands for the codes of that vocabulary among the tags of an item, or for a free text
beside them, and any other name is a dotted path into the item.
-/

namespace Newswire

/-- Where the tags and the free texts of an item are, and which fields hold numbers. -/
structure FieldLayout where
  /-- The path of the array of tags. -/
  tagArray : String := "subject"
  /-- The key of the vocabulary in a tag. -/
  schemeKey : String := "scheme"
  /-- The key of the code in a tag. -/
  codeKey : String := "qcode"
  /-- The path of the object with the free texts. -/
  customField : String := "extra"
  /-- The fields whose lists are compared as numbers. -/
  numericFields : List String := ["urgency", "priority"]
  deriving DecidableEq, Repr, Inhabited

namespace FieldLayout

/-- Lists for this field are compared as numbers. -/
def isNumeric (layout : FieldLayout) (field : String) : Bool := layout.numericFields.contains field

/-- The path of the vocabularies of all tags. -/
def schemePath (layout : FieldLayout) : String := layout.tagArray ++ "." ++ layout.schemeKey

/-- The path of the codes of all tags. -/
def codePath (layout : FieldLayout) : String := layout.tagArray ++ "." ++ layout.codeKey

/-- The path of a free text. -/
def customPath (layout : FieldLayout) (key : String) : String := layout.customField ++ "." ++ key

end FieldLayout

/-- A term of a vocabulary. -/
structure Term where
  /-- Name for people. -/
  name : String
  /-- The code that tags carry. -/
  qcode : String
  /-- The term is in use. -/
  isActive : Bool := true
  deriving DecidableEq, Repr

/-- A vocabulary: a list of terms, or the definition of a free text field. -/
structure Vocabulary where
  /-- Identifier, also the name of the field. -/
  id : String
  /-- Name for people. -/
  displayName : String
  /-- The type of the field; `text` makes it a free text. -/
  fieldType : Option String
  /-- The terms. -/
  items : List Term
  deriving DecidableEq, Repr

namespace Vocabulary

/-- A list of terms, named by its identifier. -/
def controlled (id : String) (items : List Term) : Vocabulary := ⟨id, id, none, items⟩

/-- A free text field, named by its identifier. -/
def freeText (id : String) : Vocabulary := ⟨id, id, some "text", []⟩

/-- The vocabulary defines a free text field. -/
def isFreeText (v : Vocabulary) : Bool := v.fieldType == some "text"

end Vocabulary

/-- How the entries of a list are compared with the values of a field. -/
inductive ValueKind where
  /-- As texts. -/
  | text
  /-- As numbers. -/
  | number
  deriving DecidableEq, Repr

/-- What the name of a field means. -/
inductive FieldKind where
  /-- The values at a path of the item. -/
  | plain (path : String) (values : ValueKind)
  /-- The codes of the tags of a vocabulary. -/
  | vocabulary (scheme : String)
  /-- The free text with a key. -/
  | freeText (key : String)
  deriving DecidableEq, Repr

/-- The layout of items and the vocabularies in use. -/
structure Schema where
  /-- The layout of items. -/
  layout : FieldLayout
  /-- The vocabularies by identifier. -/
  vocabularies : Table Vocabulary
  deriving Inhabited

namespace Schema

/-- A layout without vocabularies. -/
def ofLayout (layout : FieldLayout) : Schema := ⟨layout, ∅⟩

/-- Add a vocabulary, in place of the one with its identifier. -/
def put (s : Schema) (v : Vocabulary) : Schema :=
  { s with vocabularies := s.vocabularies.insert v.id v }

/-- Take a vocabulary away. -/
def remove (s : Schema) (id : String) : Schema :=
  { s with vocabularies := s.vocabularies.erase id }

/-- The kind of list comparison for a field that is no vocabulary. -/
def valueKind (s : Schema) (field : String) : ValueKind :=
  if s.layout.isNumeric field then .number else .text

/-- What the name of a field means. -/
def resolve (s : Schema) (field : String) : FieldKind :=
  match s.vocabularies.get? field with
  | some v => if v.isFreeText then .freeText v.id else .vocabulary v.id
  | none => .plain field (s.valueKind field)

/-- The terms of a vocabulary; an unknown one has none. -/
def terms (s : Schema) (scheme : String) : List Term :=
  ((s.vocabularies.get? scheme).map Vocabulary.items).getD []

end Schema

namespace FieldKind

/-- The path and the comparison of a field that is not found among the tags. -/
def path? (kind : FieldKind) (layout : FieldLayout) : Option (String × ValueKind) :=
  match kind with
  | plain path values => some (path, values)
  | freeText key => some (layout.customPath key, .text)
  | vocabulary _ => none

/-- How lists are compared with the values of a field; codes are texts. -/
def values (kind : FieldKind) : ValueKind :=
  match kind with
  | plain _ values => values
  | freeText _ | vocabulary _ => .text

end FieldKind

end Newswire
