import Newswire.Json.Reader
import Newswire.Settings.Basic
import Newswire.Settings.Place
import Newswire.Settings.Toml.Reader

/-!
# Settings from files and variables

The settings in force are laid over one another: what the program says of itself, then up to three
files, then variables.  `Settings.load?` fails when a file is not readable as TOML or a document,
whichever its name says, or when a value cannot be taken for what is wanted.
-/

namespace Newswire

namespace Settings

/-! ### Variables -/

/-- What the names of variables begin with, in any case. -/
def variableStart : String := "content_filter_"

/-- Each pair of underscores replaced by a dot. -/
def dotted : List Char → List Char
  | '_' :: '_' :: rest => '.' :: dotted rest
  | c :: rest => c :: dotted rest
  | [] => []

/-- The small letter of a character.  Outside ASCII only the Kelvin sign has one that may stand in a
key. -/
def small (c : Char) : Char := if c = '\u212A' then 'k' else c.toLower

/-- The key that a variable sets, if it sets one. -/
def keyOfVariable? (name : String) : Option String :=
  let cs := name.toList.map small
  let start := variableStart.toList
  if cs.take start.length = start then some (String.ofList (dotted (cs.drop start.length)))
  else none

/-- The one key whose value may be a list, with commas between the entries. -/
def listKey : String := "fields.numeric_fields"

/-- The value of a variable: a truth value, a number, or text. -/
def valueOfVariable (key value : String) : Setting :=
  let word := Text.asciiLower value
  if word == "true" then .flag true
  else if word == "false" then .flag false
  else match Text.readSigned? value.toList, Extended.read? value.toList with
    | some i, _ => .integer i
    | none, some x => .real x
    | none, none =>
      if key == listKey then .list ((Text.splitAt ',' value).map .text) else .text value

/-- Lay a value over the settings so far, at the place that a key writes. -/
def layKey (below : Setting) (key : String) (v : Setting) : Setting :=
  v.put (SettingStep.ofKey key) below

/-- Lay a variable over the settings so far. -/
def layVariable (below : Setting) (name value : String) : Setting :=
  match keyOfVariable? name with
  | some key => layKey below key (valueOfVariable key value)
  | none => below

/-! ### Typed settings -/

/-- The member with a key as something; `absent` stands for a missing one. -/
def memberAs? {α : Type} (members : List (String × Setting)) (key : String) (absent : α)
    (read : Setting → Option α) : Option α :=
  match members.lookup key with
  | some v => read v
  | none => some absent

/-- The layout of items. -/
def layoutOf? (v : Setting) : Option FieldLayout := do
  let built : FieldLayout := {}
  let ms ← v.asMembers?
    ["tag_array_field", "tag_scheme_key", "tag_code_key", "custom_field", "numeric_fields"]
  return {
    tagArray := ← memberAs? ms "tag_array_field" built.tagArray Setting.asText?
    schemeKey := ← memberAs? ms "tag_scheme_key" built.schemeKey Setting.asText?
    codeKey := ← memberAs? ms "tag_code_key" built.codeKey Setting.asText?
    customField := ← memberAs? ms "custom_field" built.customField Setting.asText?
    numericFields := ← memberAs? ms "numeric_fields" built.numericFields Setting.asTexts? }

/-- The settings of the memory for verdicts. -/
def cacheOf? (v : Setting) : Option CacheSettings := do
  let built : CacheSettings := {}
  let ms ← v.asMembers? ["enabled", "max_entries"]
  return {
    enabled := ← memberAs? ms "enabled" built.enabled Setting.asFlag?
    maxEntries := ← memberAs? ms "max_entries" built.maxEntries Setting.asCount? }

/-- The settings of the log. -/
def logOf? (v : Setting) : Option LogSettings := do
  let built : LogSettings := {}
  let ms ← v.asMembers? ["log_level", "log_format"]
  return {
    level := ← memberAs? ms "log_level" built.level Setting.asText?
    format := ← memberAs? ms "log_format" built.format Setting.asText? }

/-- All settings. -/
def ofMembers? (ms : List (String × Setting)) : Option Settings := do
  let built : Settings := {}
  return {
    serviceName := ← memberAs? ms "service_name" built.serviceName Setting.asText?
    environment := ← memberAs? ms "environment" built.environment Setting.asText?
    fields := ← memberAs? ms "fields" built.fields layoutOf?
    cache := ← memberAs? ms "cache" built.cache cacheOf?
    log := ← memberAs? ms "observability" built.log logOf? }

/-! ### Loading -/

/-- The variable that names the environment. -/
def environmentVariable : String := "CONTENT_FILTER_ENV"

/-- The environment that the variables name. -/
def environmentOf (vars : List (String × String)) : String :=
  (vars.lookup environmentVariable).getD "development"

/-- How a file writes settings. -/
inductive FileForm where
  /-- As TOML. -/
  | toml
  /-- As a document, which has to be an object. -/
  | json
  /-- In no known way. -/
  | unknown
  deriving DecidableEq, Repr

/-- The names of the files, the weakest first, without what tells their form. -/
def fileStems (service environment : String) : List String := ["default", environment, service]

/-- The names that a file may have, the first one that exists counts, and the forms that they tell.
A name that is nothing but an ending tells no form. -/
def fileNames (stem : String) : List (String × FileForm) :=
  let name := stem ++ ".toml"
  [(name, if stem.isEmpty || stem.endsWith "/" then .unknown else .toml),
    (name ++ ".toml", .toml), (name ++ ".json", .json)]

/-- A text without a byte order mark in front. -/
def withoutMark (text : String) : String :=
  match text.toList with
  | '\uFEFF' :: rest => String.ofList rest
  | _ => text

mutual

/-- A document as a value in settings.  Integers that do not fit 63 bits and a sign lose digits. -/
def Setting.ofJson : Json → Setting
  | .null => .nothing
  | .bool b => .flag b
  | .num (.int i) => if i < Text.signedBound then .integer i else .real (.finite (.ofInt i))
  | .num (.real d) => .real (.finite d)
  | .str s => .text s
  | .arr items => .list (ofItems items)
  | .obj members => .table (ofMembers members)

/-- The items of an array as values in settings. -/
def Setting.ofItems : List Json → List Setting
  | [] => []
  | v :: rest => Setting.ofJson v :: ofItems rest

/-- The members of an object as values in settings. -/
def Setting.ofMembers : List (String × Json) → List (String × Setting)
  | [] => []
  | (key, v) :: rest => (key, Setting.ofJson v) :: ofMembers rest

end

/-- The keys and values that the text of a file writes. -/
def readFile? (form : FileForm) (text : String) : Option (List (String × Setting)) :=
  match form with
  | .toml => Toml.read? (withoutMark text)
  | .json => match Json.ofText (withoutMark text) with
    | .ok (.obj members) => some (Setting.ofMembers members)
    | _ => none
  | .unknown => some []

/-- Lay a file, if it is there, over the settings so far. -/
def layFile (file : String → Option String) (below : Setting) (stem : String) : Option Setting :=
  match (fileNames stem).findSome? fun (name, form) => (file name).map fun text => (form, text) with
  | none => some below
  | some (form, text) => (readFile? form text).map fun ms =>
    ms.foldl (fun b (key, v) => layKey b key v) below

/-- What is set before any file is read. -/
def builtIn (service environment : String) : Setting :=
  .table [("environment", .text environment), ("service_name", .text service)]

/-- The settings of a service, from the files that `file` finds by name and from variables. -/
def load? (service : String) (file : String → Option String)
    (vars : List (String × String)) : Option Settings := do
  let environment := environmentOf vars
  let below ← (fileStems service environment).foldlM (layFile file) (builtIn service environment)
  ofMembers? (vars.foldl (fun b (name, value) => layVariable b name value) below).members

/-- The variables in a text that holds a name, `=`, a value and NUL for each. -/
def variablesOfText (text : String) : List (String × String) :=
  (Text.splitAt '\x00' text).filterMap fun entry =>
    match entry.toList.dropWhile (· != '=') with
    | _ :: value => some (String.ofList (entry.toList.takeWhile (· != '=')), String.ofList value)
    | [] => none

/-- The usual names of the variables that mean something. -/
def variableNames : List String :=
  environmentVariable :: (["SERVICE_NAME", "ENVIRONMENT", "FIELDS", "CACHE", "OBSERVABILITY",
    "FIELDS__TAG_ARRAY_FIELD", "FIELDS__TAG_SCHEME_KEY", "FIELDS__TAG_CODE_KEY",
    "FIELDS__CUSTOM_FIELD", "FIELDS__NUMERIC_FIELDS", "CACHE__ENABLED", "CACHE__MAX_ENTRIES",
    "OBSERVABILITY__LOG_LEVEL", "OBSERVABILITY__LOG_FORMAT"].map ("CONTENT_FILTER_" ++ ·))

end Settings

end Newswire
