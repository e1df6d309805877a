import ReviewChecks.Table

/-!
# Configuration

The settings of a model: how often reloads of one provider may follow each other, how long an action may take, and how
often providers are polled.
-/

namespace ReviewChecks

structure ProviderConfig where
  /-- Seconds between two polls; zero turns polling off. -/
  pollingSeconds : UInt64 := 60
deriving DecidableEq, Repr, Inhabited

/-- The milliseconds between two polls, none when polling is off. They have no bound, like the clock that they are added
to (`Pipeline.start`). -/
def ProviderConfig.pollingInterval? (config : ProviderConfig) : Option Nat :=
  if config.pollingSeconds = 0 then none else some (config.pollingSeconds.toNat * 1000)

structure ModelConfig where
  /-- Milliseconds for which a reload of a provider keeps the next one from having an effect. -/
  reloadThrottle : UInt64 := 1000
  /-- Milliseconds for which the result of an action is waited for. -/
  actionTimeout : UInt64 := 5000
  /-- Seconds between two polls of a provider that has no settings of its own. -/
  defaultPollingSeconds : UInt64 := 60
  providers : Table ProviderConfig := .empty
deriving DecidableEq, Inhabited

namespace ModelConfig

def setProvider (config : ModelConfig) (plugin : String) (settings : ProviderConfig) : ModelConfig :=
  { config with providers := config.providers.insert plugin settings }

/-- The settings that hold for a provider: those given when it is registered, else those of the configuration, else
the default. -/
def providerConfig (config : ModelConfig) (plugin : String) (explicit : Option ProviderConfig) : ProviderConfig :=
  match explicit with
  | some settings => settings
  | none => (config.providers.find? plugin).getD ⟨config.defaultPollingSeconds⟩

end ModelConfig

end ReviewChecks
