import Newswire.Command.Line
import Newswire.Wire.Bundle

/-!
# Carrying out a command

A command reads a bundle, puts it on a desk and writes lines.  What it wrote before a failure
stays written, so a `Report` holds both.
-/

namespace Newswire

/-- Why a command fails. -/
inductive Failure where
  /-- The bundle cannot be read from its file. -/
  | unreadable (path : String)
  /-- The file does not hold a bundle. -/
  | malformed (e : DecodeError)
  /-- Something in the bundle cannot be put on a desk. -/
  | refused (e : RuleError)
  /-- There is no rule with the given identifier. -/
  | noRule (id : String)
  /-- Neither a condition nor a rule is given. -/
  | nothingGiven
  /-- The rule language fails. -/
  | rule (e : RuleError)
  /-- Decisions and queries differ so many times. -/
  | disagreement (count : Nat)

namespace Failure

/-- The wording of a failure. -/
def message : Failure → String
  | unreadable path => "无法读取规则包: " ++ path
  | malformed _ => "规则包格式错误"
  | refused _ => "规则包装载失败"
  | noRule id => "过滤器不存在: " ++ id
  | nothingGiven => "需要指定 --condition 或 --filter"
  | rule e => e.message
  | disagreement count => Text.ofNat count ++ " 处判定不一致"

/-- The wording of what is behind a failure. -/
def cause? : Failure → Option String
  | malformed e => e.message?
  | refused e => some e.message
  | _ => none

end Failure

/-- What a command wrote, and why it failed, if it did. -/
structure Report where
  /-- The lines; each may hold several. -/
  lines : List String
  /-- The failure. -/
  failure : Option Failure

/-- A command being carried out: it writes lines and may fail. -/
abbrev Reporting (α : Type) := ExceptT Failure (StateM (List String)) α

namespace Command

/-- Write a line. -/
def say (line : String) : Reporting Unit := modify (line :: ·)

/-- Go on unless the rule language fails. -/
def orFail {α : Type} (r : Except RuleError α) : Reporting α :=
  match r with
  | .ok a => return a
  | .error e => throw (.rule e)

/-- The desk with the bundle of a file, and the items of the bundle. -/
def openBundle (settings : Settings) (now : Timestamp) (file : String → Option String)
    (path : String) : Reporting (Desk × List Json) := do
  let some text := file path | throw (.unreadable path)
  match (Bundle.decoder now).ofText text with
  | .error e => throw (.malformed e)
  | .ok bundle => match bundle.onDesk settings now with
    | .error e => throw (.refused e)
    | .ok desk => return (desk, bundle.items)

/-- The saved rule with a given identifier, or all of them. -/
def selectedRules (d : Desk) (id : Option String) : Reporting (List Rule) :=
  match id with
  | none => return d.book.rules.values
  | some id => match d.book.rules.get? id with
    | some r => return [r]
    | none => throw (.noRule id)

/-- Write the queries of rules. -/
def sayQueries (d : Desk) (rules : List Rule) : Reporting Unit :=
  rules.forM fun r => do
    let store ← orFail (d.storeQuery (some r))
    let search ← orFail (d.searchQuery (some r))
    say (Json.object [("filter", .str r.id), ("store", store), ("search", search)]).pretty

/-- The identities of the stored items that a rule selects, by either kind of query. -/
def queried (d : Desk) (a : Archive) (r : Rule) : Except RuleError (Found × Found) := do
  return (← d.queryStore a (some r), ← d.querySearch a (some r))

/-- The verdicts of a rule on the items with an identity, for which `verdicts` is changed. -/
def judgeItems (d : Desk) (r : Rule) (items : List Json) (verdicts : Verdicts) :
    Reporting (List (String × Bool) × Verdicts) := do
  let named := items.filterMap fun item => (Item.id? item).map fun id => (id, item)
  let (result, verdicts) := (named.mapM fun (id, item) => do
    return (id, ← d.selects (some r) item true) : Judging (List (String × Bool))).run verdicts
  return (← orFail result, verdicts)

/-- Write which items each of the rules selects.  The result is how often a verdict differs from
what the queries find. -/
def sayVerdicts (d : Desk) (items : List Json) (rules : List Rule) (verdicts : Verdicts) :
    Reporting (Nat × Verdicts) :=
  let archive := Archive.ofItems items
  rules.foldlM (fun (count, verdicts) r => do
    let (store, search) ← orFail (queried d archive r)
    let (judged, verdicts) ← judgeItems d r items verdicts
    let differing := judged.filter fun (id, verdict) =>
      verdict != store.ids.contains id || verdict != search.ids.contains id
    let selected := (judged.filter fun (_, verdict) => verdict).map (·.1)
    say (Json.object [("filter", .str r.id), ("matched", .strings selected)]).compact
    return (count + differing.length, verdicts)) (0, verdicts)

/-- Write which items a subscriber gets. -/
def sayReceived (d : Desk) (items : List Json) (id : String) (verdicts : Verdicts) :
    Reporting Verdicts :=
  items.foldlM (fun verdicts item => do
    let (result, verdicts) := (d.receives id item).run verdicts
    say (Json.object [("subscriber", .str id), ("item", .ofText? (Item.id? item)),
      ("receives", .bool (← orFail result))]).compact
    return verdicts) verdicts

/-- Carry out a command. -/
def carryOut (settings : Settings) (now : Timestamp) (file : String → Option String)
    (c : Command) : Reporting Unit := do
  match c with
  | .compile bundle rule =>
    let (d, _) ← openBundle settings now file bundle
    sayQueries d (← selectedRules d rule)
  | .evaluate bundle rule subscriber =>
    let (d, items) ← openBundle settings now file bundle
    let rules ← selectedRules d rule
    let (count, verdicts) ← sayVerdicts d items rules d.scratch
    if let some id := subscriber then discard <| sayReceived d items id verdicts
    if 0 < count then throw (.disagreement count)
  | .dependents bundle condition rule indirect =>
    let (d, _) ← openBundle settings now file bundle
    let users := d.book.dependents
    match condition, rule with
    | some id, _ => say (Json.strings (users.usersOfCondition id indirect).toList).compact
    | none, some id => say (Json.strings (users.usersOfRule id indirect).toList).compact
    | none, none => throw .nothingGiven
  | .subscribers bundle field operator value =>
    let (d, _) ← openBundle settings now file bundle
    let concerned ← orFail (d.subscribersConcerned (.ofParts "" field operator value))
    say (Json.strings concerned).compact

/-- What a command writes, and why it fails, when `file` finds files by path. -/
def report (settings : Settings) (now : Timestamp) (file : String → Option String) (c : Command) :
    Report :=
  let (result, lines) := (carryOut settings now file c).run []
  ⟨lines.reverse, match result with
    | .ok _ => none
    | .error f => some f⟩

/-- What the program does for the words of a command line: the number it ends with, what it writes,
and why it fails. -/
structure Outcome where
  /-- Zero for success, one for a failure, two for words that are not in order. -/
  exit : UInt32
  /-- What is written. -/
  output : String
  /-- The failure. -/
  failure : Option Failure

/-- What the program does for the words of a command line. -/
def outcome (settings : Settings) (now : Timestamp) (file : String → Option String)
    (words : List String) : Outcome :=
  match request words with
  | .write text => ⟨0, text, none⟩
  | .misuse => ⟨2, "", none⟩
  | .run c =>
    let r := report settings now file c
    ⟨if r.failure.isSome then 1 else 0, String.join (r.lines.map (· ++ "\n")), r.failure⟩

end Command

end Newswire
