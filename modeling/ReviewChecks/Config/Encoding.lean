import ReviewChecks.Change.Encoding
import ReviewChecks.Config

/-!
# Configurations in JSON

The JSON forms of configurations. Every field has a default. A configuration may be written with its providers in any
order.
-/

namespace ReviewChecks

def ProviderConfig.toJson (config : ProviderConfig) : Json :=
  .record [("fetch_polling_interval_seconds", Json.word64 config.pollingSeconds)]

def ProviderConfig.ofJson? (value : Json) : Option ProviderConfig := do
  let record ← Json.Record.ofJson? ["fetch_polling_interval_seconds"] value
  let default : ProviderConfig := {}
  return {
    pollingSeconds :=
      ← record.withDefault "fetch_polling_interval_seconds" Json.word64? default.pollingSeconds }

/-- A configuration as JSON, with its providers in the given order. -/
def ModelConfig.toJsonWith (config : ModelConfig) (providers : List (String × ProviderConfig)) : Json :=
  .record [("reload_throttle_ms", Json.word64 config.reloadThrottle),
    ("action_timeout_ms", Json.word64 config.actionTimeout),
    ("default_polling_interval_seconds", Json.word64 config.defaultPollingSeconds),
    ("providers", .ofEntries ProviderConfig.toJson providers)]

/-- A configuration as JSON, with its providers in the order of their names. -/
def ModelConfig.toJson (config : ModelConfig) : Json :=
  config.toJsonWith config.providers.entries

def ModelConfig.ofJson? (value : Json) : Option ModelConfig := do
  let record ← Json.Record.ofJson?
    ["reload_throttle_ms", "action_timeout_ms", "default_polling_interval_seconds", "providers"] value
  let default : ModelConfig := {}
  return {
    reloadThrottle := ← record.withDefault "reload_throttle_ms" Json.word64? default.reloadThrottle
    actionTimeout := ← record.withDefault "action_timeout_ms" Json.word64? default.actionTimeout
    defaultPollingSeconds :=
      ← record.withDefault "default_polling_interval_seconds" Json.word64? default.defaultPollingSeconds
    providers := ← record.withDefault "providers" (Table.ofJson? ProviderConfig.ofJson?) .empty }

end ReviewChecks
