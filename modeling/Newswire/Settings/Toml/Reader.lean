import Newswire.Settings.Toml.Scalar
import Newswire.Settings.Toml.Tree

/-!
# Reading TOML

`Toml.read?` reads a document line by line: headers, and keys with values.  Arrays and inline
tables may go on over several lines.  Each step takes at least one character, so the length of the
text bounds the number of steps.
-/

namespace Newswire

namespace Toml

/-- Blanks at the front of a text taken away. -/
def dropBlanks (cs : List Char) : List Char := cs.dropWhile isBlank

/-- A comment at the front of a text, up to the end of its line, taken away. -/
def dropComment (cs : List Char) : List Char :=
  match cs with
  | '#' :: rest => rest.dropWhile fun c => !isControl c
  | _ => cs

/-- Blanks, ends of lines and comments at the front of a text taken away. -/
def dropLines : List Char → List Char
  | [] => []
  | '\r' :: '\n' :: rest => dropLines rest
  | '#' :: rest => dropLines (rest.dropWhile fun c => !isControl c)
  | c :: rest => if isBlank c || c == '\n' then dropLines rest else c :: rest
termination_by cs => cs.length
decreasing_by
  all_goals simp only [List.length_cons]
  all_goals first
    | omega
    | exact Nat.lt_succ_of_le (List.dropWhile_suffix _).length_le

/-- The text after the end of a line, before which only a comment may stand. -/
def lineEnd? (cs : List Char) : Option (List Char) :=
  match dropComment (dropBlanks cs) with
  | [] => some []
  | '\n' :: rest | '\r' :: '\n' :: rest => some rest
  | _ => none

/-! ### Keys -/

/-- Characters of a key that is not quoted. -/
def isKeyChar (c : Char) : Bool := c.isAlphanum || c == '_' || c == '-'

/-- One part of a key, and the rest. -/
def simpleKey? (cs : List Char) : Option (String × List Char) :=
  match cs with
  | '"' :: rest => basicRest false [] rest
  | '\'' :: rest => literalRest false [] rest
  | _ =>
    let key := cs.takeWhile isKeyChar
    if key.isEmpty then none else some (String.ofList key, cs.dropWhile isKeyChar)

/-- The parts of a key with dots between them, and the text after the blanks behind it. -/
def key? : Nat → List Char → Option (List String × List Char)
  | 0, _ => none
  | steps + 1, cs => do
    let (part, rest) ← simpleKey? (dropBlanks cs)
    match dropBlanks rest with
    | '.' :: more =>
      let (parts, rest) ← key? steps more
      return (part :: parts, rest)
    | rest => return ([part], rest)

/-! ### Values -/

/-- How deep arrays and inline tables may lie in one another. -/
def deepest : Nat := 80

mutual

/-- A value in front of a text, and the rest.  In it, `depth` more arrays and inline tables may lie
in one another. -/
def value? : Nat → Nat → List Char → Option (Setting × List Char)
  | 0, _, _ => none
  | steps + 1, depth, cs =>
    match cs, depth with
    | '"' :: _, _ | '\'' :: _, _ => (quoted? cs).map fun (s, rest) => (.text s, rest)
    | '[' :: rest, depth + 1 => items? steps depth [] (dropLines rest)
    | '\x7b' :: rest, depth + 1 => members? steps depth [] (dropLines rest)
    | _, _ =>
      let (w, rest) := word cs
      (ofWord? w).map fun v => (v, rest)

/-- The rest of an array; `done` holds the values so far in reverse order. -/
def items? : Nat → Nat → List Setting → List Char → Option (Setting × List Char)
  | 0, _, _, _ => none
  | steps + 1, depth, done, cs =>
    match cs with
    | ']' :: rest => some (.list done.reverse, rest)
    | _ => do
      let (v, rest) ← value? steps depth cs
      match dropLines rest with
      | ',' :: rest => items? steps depth (v :: done) (dropLines rest)
      | ']' :: rest => some (.list (v :: done).reverse, rest)
      | _ => none

/-- The rest of an inline table; `done` holds the members so far. -/
def members? : Nat → Nat → Branch → List Char → Option (Setting × List Char)
  | 0, _, _, _ => none
  | steps + 1, depth, done, cs =>
    match cs with
    | '\x7d' :: rest => some (.table (freezeMembers done), rest)
    | _ => do
      let (key, rest) ← key? cs.length cs
      let rest ← after? '=' (dropLines rest)
      let (v, rest) ← value? steps depth (dropLines rest)
      let done ← Branch.addValue done v key
      match dropLines rest with
      | ',' :: rest => members? steps depth done (dropLines rest)
      | '\x7d' :: rest => some (.table (freezeMembers done), rest)
      | _ => none

end

/-! ### Documents -/

/-- The tables so far, and the path of the last header. -/
structure Progress where
  /-- The tables. -/
  root : Branch
  /-- The path; empty before the first header. -/
  path : List String

/-- Add a value under the last header. -/
def Progress.add (p : Progress) (key : List String) (v : Setting) : Option Progress :=
  (if p.path.isEmpty then Branch.addValue p.root v key
    else Branch.change (Branch.addUnder key v) p.root p.path).map fun root =>
      { p with root }

/-- Read the lines of a document. -/
def lines? : Nat → Progress → List Char → Option Branch
  | 0, _, _ => none
  | steps + 1, p, cs =>
    match dropLines cs with
    | [] => some p.root
    | '[' :: '[' :: rest => do
      let (path, rest) ← key? rest.length rest
      let rest ← lineEnd? (← after? ']' (← after? ']' rest))
      lines? steps ⟨← Branch.change Branch.arrayHeader p.root path, path⟩ rest
    | '[' :: rest => do
      let (path, rest) ← key? rest.length rest
      let rest ← lineEnd? (← after? ']' rest)
      lines? steps ⟨← Branch.change Branch.header p.root path, path⟩ rest
    | cs => do
      let (key, rest) ← key? cs.length cs
      let (v, rest) ← value? cs.length deepest (dropBlanks (← after? '=' rest))
      let rest ← lineEnd? rest
      lines? steps (← p.add key v) rest

/-- The members of the document that a text writes, if it writes one. -/
def read? (text : String) : Option (List (String × Setting)) :=
  let cs := match text.toList with
    | '\uFEFF' :: rest => rest
    | cs => cs
  (lines? (cs.length + 1) ⟨[], []⟩ cs).map freezeMembers

end Toml

end Newswire
