import Newswire.Desk.Verdicts
import Newswire.Schema
import Newswire.Text.Blank

/-!
# Settings

The settings of a running desk: how it calls itself, the layout of items, how many verdicts it
remembers and what it logs.
-/

namespace Newswire

/-- What is logged. -/
structure LogSettings where
  /-- The least severe level that is logged. -/
  level : String := "info"
  /-- The form of a line. -/
  format : String := "pretty"
  deriving DecidableEq, Repr, Inhabited

/-- Log lines are documents. -/
def LogSettings.isJson (l : LogSettings) : Bool := Text.asciiLower l.format == "json"

/-- All settings. -/
structure Settings where
  /-- The name of the service. -/
  serviceName : String := ""
  /-- The name of the environment that it runs in. -/
  environment : String := ""
  /-- The layout of items. -/
  fields : FieldLayout := {}
  /-- The memory for verdicts. -/
  cache : CacheSettings := {}
  /-- What is logged. -/
  log : LogSettings := {}
  deriving DecidableEq, Repr, Inhabited

/-- The environment is the one that matters. -/
def Settings.isProduction (s : Settings) : Bool := s.environment == "production"

end Newswire
