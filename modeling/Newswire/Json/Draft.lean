import Newswire.Json.Basic

/-!
# Documents as far as a text writes them

A text may stop being a document anywhere, and a reader that knows what it wants may reject a
document for its shape before it comes to that place.  So a text is first laid out as a `Draft`:
the document with the faults of the text left in it where they stand.  Who reads a draft in order
meets the first trouble first, be it a fault of the text or a value of the wrong shape.

What is wrong with a text also depends on who reads it: half a number at the end of a text is not
finished for a reader that wants the number, and wrong for one that passes over it.  A `Flaw` says
what it is for each kind of reader.

`Draft.skip` passes over a value that nobody asked for, `Draft.json` reads any value, and
`Draft.ofJson` lays out a document that has been read already, which has no faults.
-/

namespace Newswire

/-- Why a text stops being a document. -/
inductive Fault where
  /-- The text ends where more has to follow. -/
  | unfinished
  /-- The text goes on with something that cannot stand there. -/
  | malformed
  deriving DecidableEq, Repr

/-- What is wrong at a place of a text, for each kind of reader. -/
structure Flaw where
  /-- For a reader that wants the value. -/
  read : Fault
  /-- For a reader that passes over the value. -/
  skipped : Fault
  /-- For a reader that wants a choice: a word, or an object with the word as its only key. -/
  chosen : Fault
  deriving DecidableEq, Repr

/-- The same for every reader. -/
def Fault.plain (f : Fault) : Flaw := ⟨f, f, f⟩

/-- A document as far as a text writes it. -/
inductive Draft where
  /-- The empty value. -/
  | null
  /-- A truth value. -/
  | bool (b : Bool)
  /-- A number. -/
  | num (n : Number)
  /-- A text. -/
  | str (s : String)
  /-- An array and the flaw that stands instead of its end, if any. -/
  | arr (items : List Draft) (stop : Option Flaw)
  /-- An object and the flaw that stands instead of its next key or its end, if any.  A key that
  denotes no text is missing. -/
  | obj (members : List (Option String × Draft)) (stop : Option Flaw)
  /-- Well formed, but denotes no value: a number out of range, half a surrogate pair. -/
  | unfit
  /-- The flaw that stands instead of a value. -/
  | fault (f : Flaw)
  deriving Inhabited

namespace Draft

mutual

/-- Pass over a value; only a fault of the text is in the way. -/
def skip : Draft → Except Fault Unit
  | arr items stop => do
    skipItems items
    match stop with
    | some f => throw f.skipped
    | none => return ()
  | obj members stop => do
    skipMembers members
    match stop with
    | some f => throw f.skipped
    | none => return ()
  | fault f => throw f.skipped
  | null | bool _ | num _ | str _ | unfit => return ()

/-- Pass over the items of an array. -/
def skipItems : List Draft → Except Fault Unit
  | [] => return ()
  | d :: rest => do
    d.skip
    skipItems rest

/-- Pass over the members of an object. -/
def skipMembers : List (Option String × Draft) → Except Fault Unit
  | [] => return ()
  | (_, d) :: rest => do
    d.skip
    skipMembers rest

end

/-- How many arrays and objects may still be opened inside one another; a document that is not
being read from text has no limit. -/
abbrev Room := Option Nat

/-- The room inside one more array or object. -/
def Room.enter : Room → Except Fault Room
  | none => return none
  | some 0 => throw .malformed
  | some (n + 1) => return some n

mutual

/-- Read any value. -/
def json (room : Room) : Draft → Except Fault Json
  | null => return .null
  | bool b => return .bool b
  | num n => return .num n
  | str s => return .str s
  | arr items stop => do
    let items ← jsonItems (← room.enter) items
    match stop with
    | some f => throw f.read
    | none => return .arr items
  | obj members stop => do
    let members ← jsonMembers (← room.enter) members
    match stop with
    | some f => throw f.read
    | none => return .object members
  | unfit => throw .malformed
  | fault f => throw f.read

/-- Read the items of an array. -/
def jsonItems (room : Room) : List Draft → Except Fault (List Json)
  | [] => return []
  | d :: rest => do
    let v ← d.json room
    return v :: (← jsonItems room rest)

/-- Read the members of an object. -/
def jsonMembers (room : Room) : List (Option String × Draft) → Except Fault (List (String × Json))
  | [] => return []
  | (some k, d) :: rest => do
    let v ← d.json room
    return (k, v) :: (← jsonMembers room rest)
  | (none, _) :: _ => throw .malformed

end

mutual

/-- A document laid out. -/
def ofJson : Json → Draft
  | .null => null
  | .bool b => bool b
  | .num n => num n
  | .str s => str s
  | .arr items => arr (ofItems items) none
  | .obj members => obj (ofMembers members) none

/-- The items of an array laid out. -/
def ofItems : List Json → List Draft
  | [] => []
  | v :: rest => ofJson v :: ofItems rest

/-- The members of an object laid out. -/
def ofMembers : List (String × Json) → List (Option String × Draft)
  | [] => []
  | (k, v) :: rest => (some k, ofJson v) :: ofMembers rest

end

end Draft

end Newswire
