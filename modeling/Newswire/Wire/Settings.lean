import Newswire.Settings.Basic
import Newswire.Wire.Decoder

/-!
# Settings as documents

Every member may be missing; the built-in value stands for it then.
-/

namespace Newswire

/-- Read the layout of items. -/
def FieldLayout.decoder : Decoder FieldLayout :=
  let built : FieldLayout := {}
  Record.decoder <|
    FieldLayout.mk <$> .withDefault "tag_array_field" built.tagArray Decoder.text <*>
      .withDefault "tag_scheme_key" built.schemeKey Decoder.text <*>
      .withDefault "tag_code_key" built.codeKey Decoder.text <*>
      .withDefault "custom_field" built.customField Decoder.text <*>
      .withDefault "numeric_fields" built.numericFields (Decoder.list Decoder.text)

/-- Read the settings of the memory for verdicts. -/
def CacheSettings.decoder : Decoder CacheSettings :=
  let built : CacheSettings := {}
  Record.decoder <|
    CacheSettings.mk <$> .withDefault "enabled" built.enabled Decoder.flag <*>
      .withDefault "max_entries" built.maxEntries Decoder.count

/-- Read the settings of the log. -/
def LogSettings.decoder : Decoder LogSettings :=
  let built : LogSettings := {}
  Record.decoder <|
    LogSettings.mk <$> .withDefault "log_level" built.level Decoder.text <*>
      .withDefault "log_format" built.format Decoder.text

/-- Read all settings. -/
def Settings.decoder : Decoder Settings :=
  let built : Settings := {}
  Record.decoder <|
    Settings.mk <$> .withDefault "service_name" built.serviceName Decoder.text <*>
      .withDefault "environment" built.environment Decoder.text <*>
      .withDefault "fields" built.fields FieldLayout.decoder <*>
      .withDefault "cache" built.cache CacheSettings.decoder <*>
      .withDefault "observability" built.log LogSettings.decoder

end Newswire
