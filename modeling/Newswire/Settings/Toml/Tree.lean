import Newswire.Settings.Value

/-!
# Tables under construction

A TOML document defines its tables piece by piece, and what may still be added to a table depends
on how it came to be.  `Node` keeps that with each table until the document ends, when
`Node.freeze` leaves only the values.
-/

namespace Newswire

namespace Toml

/-- How a table came to be. -/
inductive Origin where
  /-- By its own header. -/
  | header
  /-- By the header of a table inside it. -/
  | inner
  /-- By a dotted key. -/
  | dotted
  deriving DecidableEq, Repr

/-- A value or a table under construction. -/
inductive Node where
  /-- A value that is complete. -/
  | value (v : Setting)
  /-- A table. -/
  | table (origin : Origin) (members : List (String × Node))
  /-- An array of tables, the last one first. -/
  | tables (last : List (String × Node)) (earlier : List (List (String × Node)))
  deriving Inhabited

/-- The members of a table under construction. -/
abbrev Branch := List (String × Node)

namespace Branch

/-- Add a value under a dotted key to a table.  The tables on the way must not have a header, and
will not get one any more.  The way may lead through the last table of an array, but not end
there. -/
def addValue (b : Branch) (v : Setting) : List String → Option Branch
  | [] => none
  | [key] => if (b.lookup key).isSome then none else some (Keyed.insert key (.value v) b)
  | key :: rest =>
    match b.lookup key with
    | none => (addValue [] v rest).map fun inside => Keyed.insert key (.table .dotted inside) b
    | some (.table .header _) => none
    | some (.table _ inside) => (addValue inside v rest).map fun inside =>
      Keyed.insert key (.table .dotted inside) b
    | some (.tables last earlier) =>
      if rest.length = 1 then none
      else (addValue last v rest).map fun last => Keyed.insert key (.tables last earlier) b
    | some (.value _) => none

/-- Change the table at the end of a path of keys; missing ones are made. -/
def change (f : Option Node → Option Node) (b : Branch) : List String → Option Branch
  | [] => none
  | [key] => (f (b.lookup key)).map fun node => Keyed.insert key node b
  | key :: rest =>
    match b.lookup key with
    | none => (change f [] rest).map fun inside => Keyed.insert key (.table .inner inside) b
    | some (.table origin inside) => (change f inside rest).map fun inside =>
      Keyed.insert key (.table origin inside) b
    | some (.tables last earlier) => (change f last rest).map fun last =>
      Keyed.insert key (.tables last earlier) b
    | some (.value _) => none

/-- A header defines a table, once. -/
def header (before : Option Node) : Option Node :=
  match before with
  | none => some (.table .header [])
  | some (.table .inner inside) => some (.table .header inside)
  | some _ => none

/-- A header in double brackets adds a table to an array. -/
def arrayHeader (before : Option Node) : Option Node :=
  match before with
  | none => some (.tables [] [])
  | some (.tables last earlier) => some (.tables [] (last :: earlier))
  | some _ => none

/-- Add a value to the table that the last header defined. -/
def addUnder (key : List String) (v : Setting) (before : Option Node) : Option Node :=
  match before with
  | some (.table origin inside) => (addValue inside v key).map (.table origin ·)
  | some (.tables last earlier) => (addValue last v key).map (.tables · earlier)
  | some (.value _) | none => none

end Branch

mutual

/-- The value of a node. -/
def Node.freeze : Node → Setting
  | .value v => v
  | .table _ ms => .table (freezeMembers ms)
  | .tables last earlier =>
    .list ((.table (freezeMembers last) :: freezeTables earlier).reverse)

/-- The values of the members of a table. -/
def freezeMembers : List (String × Node) → List (String × Setting)
  | [] => []
  | (key, node) :: rest => (key, node.freeze) :: freezeMembers rest

/-- The values of several tables. -/
def freezeTables : List (List (String × Node)) → List Setting
  | [] => []
  | ms :: rest => .table (freezeMembers ms) :: freezeTables rest

end

end Toml

end Newswire
