import Newswire.Text.Blank
import Newswire.Text.Pattern

/-!
# Operators of conditions

An operator says how the values of a field are compared with the value of a condition.  The text
operators look for the value inside a text, at its beginning or at its end; `eq` wants equality;
`isIn` and `notIn` take the value as a list with commas.  Text is compared without regard to case,
except by `eq`.
-/

namespace Newswire

/-- How the values of a field are compared with the value of a condition. -/
inductive Operator where
  /-- The value occurs in a text. -/
  | like
  /-- A text begins with the value. -/
  | startsWith
  /-- A text ends with the value. -/
  | endsWith
  /-- Something equals the value. -/
  | eq
  /-- Something equals an entry of the list. -/
  | isIn
  /-- Something is there, and nothing equals an entry of the list. -/
  | notIn
  deriving DecidableEq, Repr

namespace Operator

/-- All operators. -/
def all : List Operator := [like, startsWith, endsWith, eq, isIn, notIn]

/-- The word for an operator. -/
def name : Operator → String
  | like => "like"
  | startsWith => "startswith"
  | endsWith => "endswith"
  | eq => "eq"
  | isIn => "in"
  | notIn => "nin"

/-- The operator with the given word, without regard to surrounding blanks and ASCII case. -/
def ofName? (raw : String) : Option Operator :=
  let word := Text.asciiLower (Text.trim raw)
  all.find? fun op => op.name == word

/-- The operators that look for the value inside a text. -/
def isPattern : Operator → Bool
  | like | startsWith | endsWith => true
  | eq | isIn | notIn => false

/-- The operators whose value is a list. -/
def isList : Operator → Bool
  | isIn | notIn => true
  | like | startsWith | endsWith | eq => false

/-- The pattern that a text operator looks for. -/
def pattern? (op : Operator) (value : String) : Option String :=
  let literal := Text.Pattern.escape value.toList
  match op with
  | like => some (String.ofList literal)
  | startsWith => some (String.ofList ('^' :: literal))
  | endsWith => some (String.ofList (literal ++ ['\\', 'z']))
  | eq | isIn | notIn => none

end Operator

/-- The pattern of the texts that equal a value. -/
def exactPattern (value : String) : String :=
  String.ofList ('^' :: (Text.Pattern.escape value.toList ++ ['\\', 'z']))

/-- A written pattern is found in a text without regard to case; what is no pattern is not. -/
def caselessFound (pattern text : String) : Bool :=
  match Text.Pattern.read? pattern.toList with
  | some p => p.found true text
  | none => false

/-- Two texts are equal without regard to case. -/
def caselessEqual (value text : String) : Bool := caselessFound (exactPattern value) text

/-- The entries of a list value: the stretches between commas without blanks around them, the empty
ones left out. -/
def listEntries (value : String) : List String :=
  ((Text.splitAt ',' value).map Text.trim).filter (!·.isEmpty)

namespace Operator

theorem ofName?_name (op : Operator) : ofName? op.name = some op := by cases op <;> decide +kernel

end Operator

end Newswire
