import Newswire.Json.Printer
import Newswire.Json.Reader
import Newswire.Timestamp

/-!
# Reading typed values from documents

A `Decoder` reads a value of some type from a draft.  It goes through the draft in the order in
which it is written, so the first trouble wins, be it a fault of the text (`DecodeError.broken`)
or a value that is not what is wanted there.

Values with named members are described by a `Record`: what each member holds, and which value is
taken when it is missing.  The members may come in any order, others are passed over, and an array
stands for the members in the order of the description.
-/

namespace Newswire

/-- Why no value is read from a document. -/
inductive DecodeError where
  /-- The text is no document. -/
  | broken (fault : Fault)
  /-- The document has a value of the wrong shape, or lacks one. -/
  | shape
  /-- A value that is no identifier stands for one. -/
  | badIdentifier (v : Json)
  /-- A word that is no operator stands for one. -/
  | badOperator (word : String)

/-- The wording of an error, for those that have one. -/
def DecodeError.message? : DecodeError → Option String
  | badIdentifier v => some ("无效的标识: " ++ v.compact)
  | badOperator word => some ("无效的操作符: " ++ word)
  | broken _ | shape => none

/-- A way to read a value from a draft, with the room for arrays and objects inside it. -/
abbrev Decoder (α : Type) := Draft.Room → Draft → Except DecodeError α

namespace Decoder

variable {α β : Type}

/-- A result that only a fault of the text can prevent. -/
def orBroken (r : Except Fault α) : Except DecodeError α :=
  match r with
  | .ok a => .ok a
  | .error f => .error (.broken f)

/-- The end of an array or object has to come next. -/
def ended (stop : Option Flaw) : Except DecodeError Unit :=
  match stop with
  | some f => .error (.broken f.read)
  | none => .ok ()

/-- The value is not of the wanted kind, or not a value at all. -/
def reject (d : Draft) : Except DecodeError α :=
  match d with
  | .fault f => .error (.broken f.read)
  | .unfit => .error (.broken .malformed)
  | _ => .error .shape

/-- Any value. -/
def json : Decoder Json := fun room d => orBroken (d.json room)

/-- A text. -/
def text : Decoder String := fun _ d =>
  match d with
  | .str s => .ok s
  | d => reject d

/-- A truth value. -/
def flag : Decoder Bool := fun _ d =>
  match d with
  | .bool b => .ok b
  | d => reject d

/-- An integer that is not negative. -/
def count : Decoder Nat := fun _ d =>
  match d with
  | .num (.int i) => if 0 ≤ i then .ok i.toNat else .error .shape
  | d => reject d

/-- A point in time, as text. -/
def timestamp : Decoder Timestamp := fun _ d =>
  match d with
  | .str s => match Timestamp.read? s with
    | some t => .ok t
    | none => .error .shape
  | d => reject d

/-- A value, or the empty value in its place. -/
def optional (item : Decoder α) : Decoder (Option α) := fun room d =>
  match d with
  | .null => .ok none
  | d => some <$> item room d

/-- An array of values. -/
def list (item : Decoder α) : Decoder (List α) := fun room d =>
  match d with
  | .arr items stop => do
    let inside ← orBroken room.enter
    let values ← items.mapM (item inside)
    ended stop
    return values
  | d => reject d

/-- The identifier that a value stands for: a text itself, or a number by its text. -/
def identifierOf (v : Json) : Except DecodeError String :=
  match v with
  | .str s => .ok s
  | .num n => .ok n.text
  | v => .error (.badIdentifier v)

/-- An identifier. -/
def identifier : Decoder String := fun room d => do identifierOf (← json room d)

/-- An array of identifiers. -/
def identifiers : Decoder (List String) := fun room d => do
  (← list json room d).mapM identifierOf

/-- An identifier, or the empty value in its place. -/
def optionalIdentifier : Decoder (Option String) := fun room d => do
  match ← json room d with
  | .null => return none
  | v => some <$> identifierOf v

/-- Read a value from a text. -/
def ofText (item : Decoder α) (s : String) : Except DecodeError α := do
  let (d, after) := Draft.ofText s
  let a ← item (some 127) d
  match after with
  | some f => throw (.broken f)
  | none => return a

/-- Read a value from a document. -/
def ofJson (item : Decoder α) (v : Json) : Except DecodeError α := item none (.ofJson v)

end Decoder

/-- How a value with named members is read. -/
structure Record (α : Type) where
  /-- The members in order, each with the check that it can be read. -/
  members : List (String × Decoder Unit)
  /-- The value, when the members are given by name. -/
  build : Draft.Room → (String → Option Draft) → Except DecodeError α

namespace Record

variable {α β : Type}

/-- The member has to be there. -/
def required (name : String) (item : Decoder α) : Record α where
  members := [(name, fun room d => discard (item room d))]
  build room member := match member name with
    | some d => item room d
    | none => .error .shape

/-- The member may be missing; `absent` stands for it then. -/
def withDefault (name : String) (absent : α) (item : Decoder α) : Record α where
  members := [(name, fun room d => discard (item room d))]
  build room member := match member name with
    | some d => item room d
    | none => .ok absent

instance : Applicative Record where
  pure a := ⟨[], fun _ _ => .ok a⟩
  seq f x :=
    ⟨f.members ++ (x ()).members, fun room member => do
      let g ← f.build room member
      let a ← (x ()).build room member
      return g a⟩

/-- Check the members of an object in their order.  None may come twice. -/
def checkMembers (r : Record α) (room : Draft.Room) (seen : List String) :
    List (Option String × Draft) → Except DecodeError Unit
  | [] => .ok ()
  | (none, _) :: _ => .error (.broken .malformed)
  | (some name, d) :: rest =>
    match r.members.lookup name with
    | some check =>
      if name ∈ seen then .error .shape
      else do
        check room d
        checkMembers r room (name :: seen) rest
    | none => do
      Decoder.orBroken d.skip
      checkMembers r room seen rest

/-- Check the items of an array in place of an object.  Items that no member is left for show only
after the others are read. -/
def checkItems (room : Draft.Room) :
    List (String × Decoder Unit) → List Draft → Option Flaw → Except DecodeError Unit
  | [], [], stop | _ :: _, [], stop => Decoder.ended stop
  | [], _ :: _, _ => .error (if room.isSome then .broken .malformed else .shape)
  | (_, check) :: members, d :: items, stop => do
    check room d
    checkItems room members items stop

/-- Read a value with named members. -/
def decoder (r : Record α) : Decoder α := fun room d =>
  match d with
  | .obj members stop => do
    let inside ← Decoder.orBroken room.enter
    r.checkMembers inside [] members
    Decoder.ended stop
    r.build inside fun name => members.lookup (some name)
  | .arr items stop => do
    let inside ← Decoder.orBroken room.enter
    checkItems inside r.members items stop
    r.build inside fun name => ((r.members.map (·.1)).zip items).lookup name
  | d => Decoder.reject d

end Record

end Newswire
