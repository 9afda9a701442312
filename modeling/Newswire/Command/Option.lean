import Newswire.Text.Blank

/-!
# Options on a command line

`OptionTable.scan` reads the words behind a command.  A long option is written with two dashes,
its value behind `=` or as the next word; short options of one letter may be joined behind one
dash, and the value of the last may follow directly or behind `=`.  Words are read in order, so a
request for help wins over a mistake behind it, and loses to one before it.
-/

namespace Newswire

/-- An option of a command. -/
structure OptionSpec where
  /-- The name behind two dashes. -/
  long : String
  /-- The letter behind one dash, if there is one. -/
  short : Option Char := none
  /-- What is said of the option. -/
  help : String := ""
  /-- The option takes a value; otherwise it is a switch. -/
  takesValue : Bool := true
  /-- The option has to be given. -/
  isRequired : Bool := false
  /-- The value is acceptable. -/
  accepts : String → Bool := fun _ => true

/-- Why the words of a command line are not carried out as a command. -/
inductive Interruption where
  /-- Help is asked for. -/
  | help
  /-- The version is asked for. -/
  | version
  /-- The words are not in order. -/
  | misuse
  deriving DecidableEq, Repr

/-- The options of a command. -/
abbrev OptionTable := List OptionSpec

/-- The options that were given, with their values; switches have empty ones. -/
abbrev GivenOptions := List (String × String)

namespace OptionTable

/-- The option with a long name. -/
def long? (t : OptionTable) (name : String) : Option OptionSpec := t.find? fun o => o.long == name

/-- The option with a letter. -/
def short? (t : OptionTable) (c : Char) : Option OptionSpec := t.find? fun o => o.short == some c

/-- A word that cannot be the value of the option before it: it begins with a dash and goes on. -/
def isDashed (word : String) : Bool :=
  match word.toList with
  | '-' :: _ :: _ => true
  | _ => false

/-- Take an option that may be given once. -/
def take (o : OptionSpec) (value : String) (given : GivenOptions) :
    Except Interruption GivenOptions :=
  if (given.lookup o.long).isSome || !o.accepts value then .error .misuse
  else .ok ((o.long, value) :: given)

/-- What a word leaves to be done: nothing, or the value of an option is the next word. -/
inductive Pending where
  /-- Nothing. -/
  | nothing
  /-- The value of this option. -/
  | value (o : OptionSpec)

/-- Read the letters behind one dash. -/
def readShort (t : OptionTable) (given : GivenOptions) :
    List Char → Except Interruption (GivenOptions × Pending)
  | [] => .ok (given, .nothing)
  | 'h' :: _ => .error .help
  | 'V' :: _ => .error .version
  | c :: rest =>
    match t.short? c with
    | none => .error .misuse
    | some o =>
      if o.takesValue then
        match rest with
        | [] => .ok (given, .value o)
        | '=' :: value => (take o (String.ofList value) given).map fun g => (g, .nothing)
        | value => (take o (String.ofList value) given).map fun g => (g, .nothing)
      else do readShort t (← take o "" given) rest

/-- Read what is behind two dashes. -/
def readLong (t : OptionTable) (given : GivenOptions) (cs : List Char) :
    Except Interruption (GivenOptions × Pending) :=
  let name := String.ofList (cs.takeWhile (· != '='))
  let attached := match cs.dropWhile (· != '=') with
    | _ :: value => some (String.ofList value)
    | [] => none
  match name, attached with
  | "help", none => .error .help
  | "version", none => .error .version
  | _, _ =>
    match t.long? name, attached with
    | none, _ => .error .misuse
    | some o, some value =>
      if o.takesValue then (take o value given).map fun g => (g, .nothing) else .error .misuse
    | some o, none =>
      if o.takesValue then .ok (given, .value o) else (take o "" given).map fun g => (g, .nothing)

/-- Read one word. -/
def readWord (t : OptionTable) (given : GivenOptions) (word : String) :
    Except Interruption (GivenOptions × Pending) :=
  match word.toList with
  | '-' :: '-' :: cs => readLong t given cs
  | '-' :: c :: cs => readShort t given (c :: cs)
  | _ => .error .misuse

/-- Read the words behind a command. -/
def scan (t : OptionTable) (given : GivenOptions) : Pending → List String →
    Except Interruption GivenOptions
  | .nothing, [] => .ok given
  | .value _, [] => .error .misuse
  | .value o, word :: rest => do
    if isDashed word then throw .misuse
    scan t (← take o word given) .nothing rest
  | .nothing, word :: rest => do
    if word == "--" then
      if rest.isEmpty then return given else throw .misuse
    let (given, pending) ← t.readWord given word
    scan t given pending rest

/-- Read the words behind a command; all required options have to be among them. -/
def read (t : OptionTable) (words : List String) : Except Interruption GivenOptions := do
  let given ← t.scan [] .nothing words
  if t.all fun o => !o.isRequired || (given.lookup o.long).isSome then return given
  else throw .misuse

end OptionTable

end Newswire
