import Newswire.Command.Option
import Newswire.Rule.Operator

/-!
# The command line

The words of the command line either name a `Command`, ask for a text (`Request.write`), or are not
in order.
-/

namespace Newswire

/-- What the program can do. -/
inductive Command where
  /-- Write the queries of one rule or all rules of a bundle. -/
  | compile (bundle : String) (rule : Option String)
  /-- Decide on the items of a bundle, and compare with what the queries find. -/
  | evaluate (bundle : String) (rule subscriber : Option String)
  /-- Write the users of a condition or a rule. -/
  | dependents (bundle : String) (condition rule : Option String) (indirect : Bool)
  /-- Write the subscribers that a condition concerns. -/
  | subscribers (bundle field : String) (operator : Operator) (value : String)
  deriving DecidableEq, Repr

/-- What the words of a command line ask for. -/
inductive Request where
  /-- Carry out a command. -/
  | run (c : Command)
  /-- Write a text. -/
  | write (text : String)
  /-- The words are not in order. -/
  | misuse
  deriving DecidableEq, Repr

namespace Command

/-- The file with the bundle of a command. -/
def bundle : Command → String
  | compile bundle _ | evaluate bundle _ _ | dependents bundle _ _ _ | subscribers bundle _ _ _ =>
    bundle

/-- The name of the program. -/
def program : String := "content-filter"

/-- The version of the program. -/
def version : String := "0.1.0"

/-- A command with its options. -/
structure Spec where
  /-- The word for it. -/
  name : String
  /-- What is said of it. -/
  about : String
  /-- Its options. -/
  options : OptionTable
  /-- The command with the options that were given. -/
  build : GivenOptions → Option Command

/-- The file with the bundle, which every command needs. -/
def bundleOption (help : String) : OptionSpec :=
  { long := "bundle", short := some 'b', help, isRequired := true, accepts := (!·.isEmpty) }

/-- All commands. -/
def specs : List Spec := [
  { name := "compile"
    about := "输出过滤器编译后的文档库谓词与搜索查询"
    options := [bundleOption "规则包 JSON 文件",
      { long := "filter", short := some 'f', help := "过滤器 ID；不指定时编译全部" }]
    build := fun g => do return .compile (← g.lookup "bundle") (g.lookup "filter") },
  { name := "evaluate"
    about := "对规则包中的条目逐条判定，并与两个内存后端的结果对照"
    options := [bundleOption "",
      { long := "filter", short := some 'f' },
      { long := "subscriber", short := some 's',
        help := "订阅者 ID；指定时输出该订阅者是否接收每个条目" }]
    build := fun g => do
      return .evaluate (← g.lookup "bundle") (g.lookup "filter") (g.lookup "subscriber") },
  { name := "dependents"
    about := "查询依赖某个条件或过滤器的过滤器"
    options := [bundleOption "",
      { long := "condition" },
      { long := "filter" },
      { long := "transitive", short := some 't', help := "包含间接依赖", takesValue := false }]
    build := fun g => do
      if (g.lookup "condition").isSome && (g.lookup "filter").isSome then none
      else
        return .dependents (← g.lookup "bundle") (g.lookup "condition") (g.lookup "filter")
          (g.lookup "transitive").isSome },
  { name := "subscribers"
    about := "查询会受某个条件影响的订阅者"
    options := [bundleOption "",
      { long := "field", isRequired := true },
      { long := "operator", isRequired := true, accepts := fun s => (Operator.ofName? s).isSome },
      { long := "value", isRequired := true }]
    build := fun g => do
      return .subscribers (← g.lookup "bundle") (← g.lookup "field")
        (← (g.lookup "operator").bind Operator.ofName?) (← g.lookup "value") }]

/-! ### Texts -/

/-- A text with blanks behind it up to a width. -/
def padded (width : Nat) (s : String) : String := s ++ "".pushn ' ' (width - s.length)

/-- Lines of two columns. -/
def columns (rows : List (String × String)) : String :=
  let width := rows.foldl (fun w (left, _) => max w left.length) 0
  "\n".intercalate (rows.map fun (left, right) => "  " ++ padded width left ++ "  " ++ right)

/-- How the value of an option is called. -/
def valueName (o : OptionSpec) : String := "<" ++ o.long.toUpper ++ ">"

/-- How an option is written, without its letter. -/
def longForm (o : OptionSpec) : String :=
  "--" ++ o.long ++ if o.takesValue then " " ++ valueName o else ""

/-- How an option is written. -/
def optionForm (o : OptionSpec) : String :=
  (match o.short with
    | some c => String.ofList ['-', c, ',', ' ']
    | none => "    ") ++ longForm o

/-- The options that every command has. -/
def commonOptions : List (String × String) :=
  [("-h, --help", "Print help"), ("-V, --version", "Print version")]

/-- The help on a command. -/
def Spec.help (s : Spec) : String :=
  let extras := if s.options.all (·.isRequired) then [] else ["[OPTIONS]"]
  let required := (s.options.filter (·.isRequired)).map longForm
  s.about ++ "\n\nUsage: " ++ " ".intercalate ([program, s.name] ++ extras ++ required) ++
    "\n\nOptions:\n" ++
    columns (s.options.map (fun o => (optionForm o, o.help)) ++ commonOptions) ++ "\n"

/-- What is said of the command for help. -/
def helpAbout : String := "Print this message or the help of the given subcommand(s)"

/-- The help on the program. -/
def help : String :=
  "内容过滤规则编译与评估工具\n\nUsage: " ++ program ++ " <COMMAND>\n\nCommands:\n" ++
    columns (specs.map (fun s => (s.name, s.about)) ++ [("help", helpAbout)]) ++
    "\n\nOptions:\n" ++ columns commonOptions ++ "\n"

/-- The help on the command for help. -/
def helpOnHelp : String :=
  helpAbout ++ "\n\nUsage: " ++ program ++ " help [COMMAND]...\n\nArguments:\n" ++
    columns [("[COMMAND]...", "Print help for the subcommand(s)")] ++ "\n"

/-- The text about the version. -/
def versionText (name : String) : String := name ++ " " ++ version ++ "\n"

/-! ### Reading -/

/-- The command with a word. -/
def spec? (name : String) : Option Spec := specs.find? fun s => s.name == name

/-- Read the words behind a command. -/
def Spec.request (s : Spec) (words : List String) : Request :=
  match s.options.read words with
  | .ok given => match s.build given with
    | some c => .run c
    | none => .misuse
  | .error .help => .write s.help
  | .error .version => .write (versionText (program ++ "-" ++ s.name))
  | .error .misuse => .misuse

/-- Read the words behind the command for help. -/
def helpRequest (words : List String) : Request :=
  match words with
  | [] => .write help
  | ["help"] => .write helpOnHelp
  | [name] => match spec? name with
    | some s => .write s.help
    | none => .misuse
  | _ => .misuse

/-- Read the words of a command line. -/
def request (words : List String) : Request :=
  match words with
  | [] => .misuse
  | word :: rest =>
    if word == "help" then helpRequest rest
    else match spec? word with
      | some s => s.request rest
      | none => match OptionTable.readWord [] [] word with
        | .error .help => .write help
        | .error .version => .write (versionText program)
        | _ => .misuse

end Command

end Newswire
