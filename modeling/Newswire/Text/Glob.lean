import Newswire.Text.Pattern

/-!
# Wildcard patterns

A wildcard pattern describes whole texts: `*` stands for any stretch of characters, `?` for one
character, a backslash makes the next character literal, and a backslash at the very end stands
for nothing.  `Glob.escape` writes any text literally.

A wildcard pattern is not run by itself: `Glob.toPattern` writes the pattern that is found in the
texts that it describes.
-/

namespace Newswire

namespace Text

namespace Glob

/-- The characters that are written with a backslash. -/
def isMeta (c : Char) : Bool := c == '*' || c == '?' || c == '\\'

/-- A text written so that every character is taken literally. -/
def escape (cs : List Char) : List Char :=
  cs.flatMap fun c => if isMeta c then ['\\', c] else [c]

/-- The steps of a wildcard pattern in the notation of patterns; each literal character is escaped
by itself. -/
def translate : List Char → List Char
  | [] => []
  | '\\' :: [] => []
  | '\\' :: c :: rest => Pattern.escape [c] ++ translate rest
  | '*' :: rest => '.' :: '*' :: translate rest
  | '?' :: rest => '.' :: translate rest
  | c :: rest => Pattern.escape [c] ++ translate rest

/-- The pattern that a wildcard pattern stands for: it goes from the beginning of a text to its end,
and across lines. -/
def toPattern (glob : List Char) : List Char :=
  ['(', '?', 's', ')', '^'] ++ translate glob ++ ['\\', 'z']

end Glob

end Text

end Newswire
