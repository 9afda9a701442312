import Newswire.Command.Report
import Newswire.Settings.Layers

/-!
# The program

All decisions are made by `Settings.load?` and `Command.outcome`; here files and variables are read
and the outcome is written.  No command shows a time, so the clock is not read.
-/

namespace Newswire

/-- The content of a file, if it can be read. -/
def readIfThere (path : String) : IO (Option String) := do
  try
    return some (← IO.FS.readFile path)
  catch _ =>
    return none

/-- The variables that are set.  Where the system shows no list of them, only the usual names are
looked up. -/
def readVariables : IO (List (String × String)) := do
  match ← readIfThere "/proc/self/environ" with
  | some text => return Settings.variablesOfText text
  | none => Settings.variableNames.filterMapM fun name => do
    return (← IO.getEnv name).map fun value => (name, value)

/-- The settings from the files of a directory and from variables. -/
def readSettings : IO Settings := do
  let vars ← readVariables
  let directory := (← IO.getEnv "CONFIG_DIR").getD "config"
  let stems := Settings.fileStems Command.program (Settings.environmentOf vars)
  let files ← (stems.flatMap Settings.fileNames).mapM fun (name, _) => do
    return (name, ← readIfThere (directory ++ "/" ++ name))
  match Settings.load? Command.program (fun name => (files.lookup name).join) vars with
  | some s => return s
  | none =>
    IO.eprintln "Failed to load config, using defaults"
    return {}

/-- The files that the words of a command line may mean. -/
def readFiles (words : List String) : IO (List (String × String)) :=
  match Command.request words with
  | .run c => do
    match ← readIfThere c.bundle with
    | some text => return [(c.bundle, text)]
    | none => return []
  | _ => return []

end Newswire

open Newswire in
/-- Run the program. -/
def main (words : List String) : IO UInt32 := do
  let settings ← readSettings
  let files ← readFiles words
  let done := Command.outcome settings ⟨0, 0⟩ (fun path => files.lookup path) words
  (← IO.getStdout).putStr done.output
  match done.failure with
  | some f =>
    IO.eprintln ("Error: " ++ f.message)
    if let some cause := f.cause? then IO.eprintln ("Caused by: " ++ cause)
  | none =>
    if done.exit == 2 then IO.eprintln Command.help
  return done.exit
