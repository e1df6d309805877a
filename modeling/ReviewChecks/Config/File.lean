import ReviewChecks.Config
import ReviewChecks.Error
import ReviewChecks.Toml.Document

/-!
# Configuration files

Configurations as TOML files. A file that is not there stands for the default configuration. Fields that a
configuration does not know are skipped, though the numbers in them have to be representable. The written form has the
settings of the model, then a table for each provider.
-/

namespace ReviewChecks

def Toml.word64? : Toml → Option UInt64
  | .integer value =>
    if 0 ≤ value then
      if small : value.toNat < UInt64.size then some (UInt64.ofNatLT value.toNat small) else none
    else none
  | _ => none

/-- The number of a field, or a default when there is no such field. -/
def Toml.wordField? (name : String) (default : UInt64) (fields : Toml.Fields) : Option UInt64 :=
  match fields.lookup name with
  | some value => value.word64?
  | none => some default

/-- Whether the fields with other names than the given ones can be skipped. -/
def Toml.othersReadable (names : List String) (fields : Toml.Fields) : Bool :=
  Toml.fieldsReadable (fields.filter fun field => !names.contains field.1)

/-- The provider's settings of a TOML value: a table, an array whose first item is the number of seconds, or a date or
time, which like a table without known fields leaves everything at its default. -/
def ProviderConfig.ofToml? : Toml → Option ProviderConfig
  | .table _ fields => do
    let default : ProviderConfig := {}
    guard (Toml.othersReadable ["fetch_polling_interval_seconds"] fields)
    let pollingSeconds ← Toml.wordField? "fetch_polling_interval_seconds" default.pollingSeconds fields
    return { pollingSeconds }
  | .array [] => some {}
  | .array (value :: _) => value.word64?.map fun pollingSeconds => { pollingSeconds }
  | .dateTime _ => some {}
  | _ => none

def ModelConfig.providersOfToml? : Option Toml → Option (Table ProviderConfig)
  | none => some .empty
  | some (.table _ fields) => do
    let providers ← fields.mapM fun field => do
      let settings ← ProviderConfig.ofToml? field.2
      return (field.1, settings)
    return .ofList providers
  | some _ => none

def ModelConfig.ofFields? (fields : Toml.Fields) : Option ModelConfig := do
  let default : ModelConfig := {}
  guard (Toml.othersReadable
    ["reload_throttle_ms", "action_timeout_ms", "default_polling_interval_seconds", "providers"] fields)
  return {
    reloadThrottle := ← Toml.wordField? "reload_throttle_ms" default.reloadThrottle fields
    actionTimeout := ← Toml.wordField? "action_timeout_ms" default.actionTimeout fields
    defaultPollingSeconds :=
      ← Toml.wordField? "default_polling_interval_seconds" default.defaultPollingSeconds fields
    providers := ← ModelConfig.providersOfToml? (fields.lookup "providers") }

def ModelConfig.ofToml? (text : String) : Option ModelConfig :=
  (Toml.parse? text).bind ModelConfig.ofFields?

namespace ModelConfig

def printLine (name : String) (value : UInt64) : List Char :=
  name.toList ++ " = ".toList ++ Text.toDecimal value.toNat ++ ['\n']

def printProvider (plugin : String) (settings : ProviderConfig) : List Char :=
  "[providers.".toList ++ Toml.printKey plugin.toList ++ "]\n".toList ++
    printLine "fetch_polling_interval_seconds" settings.pollingSeconds

/-- The tables of providers in the written form, with an empty line between them; a header of its own when there is
none. -/
def printProviders : List (String × ProviderConfig) → List Char
  | [] => "[providers]\n".toList
  | [(plugin, settings)] => printProvider plugin settings
  | (plugin, settings) :: rest => printProvider plugin settings ++ '\n' :: printProviders rest

/-- The written form of a configuration whose providers are written in the given order. -/
def printWith (config : ModelConfig) (providers : List (String × ProviderConfig)) : List Char :=
  printLine "reload_throttle_ms" config.reloadThrottle ++ printLine "action_timeout_ms" config.actionTimeout ++
    printLine "default_polling_interval_seconds" config.defaultPollingSeconds ++ '\n' :: printProviders providers

/-- The written form of a configuration, with the providers in the order of their names. -/
def toToml (config : ModelConfig) : String :=
  String.ofList (config.printWith config.providers.entries)

end ModelConfig

/-- What is found where a configuration is to be read. -/
inductive ConfigFile where
  | missing
  | directory
  | bytes (content : ByteArray)

/-- Where a configuration is to be written. -/
inductive ConfigTarget where
  /-- A place whose directories can be made. -/
  | free
  /-- A place below a regular file. -/
  | underFile
deriving DecidableEq, Repr

def ModelConfig.load : ConfigFile → Except Error ModelConfig
  | .missing => .ok {}
  | .directory => .error (.io "a directory")
  | .bytes content =>
    match String.fromUTF8? content with
    | none => .error (.io "not valid UTF-8")
    | some text =>
      match ModelConfig.ofToml? text with
      | some config => .ok config
      | none => .error (.config "invalid configuration")

/-- Writes a configuration; the text that the file holds then. -/
def ModelConfig.save (config : ModelConfig) : ConfigTarget → Except Error String
  | .free => .ok config.toToml
  | .underFile => .error (.io "below a file")

end ReviewChecks
