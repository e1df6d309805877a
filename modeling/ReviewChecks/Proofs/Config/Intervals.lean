import ReviewChecks.Proofs.Config.File
import ReviewChecks.Proofs.Toml.Names

/-! # Which polling interval holds

Of every configuration that is read from a file it can be told from the file how often a provider is polled
(`ModelConfig.interval_of_loaded`). A provider that has an entry among the providers of the file is polled as the entry
states, and an entry that states no interval stands for a minute. The default of the file only holds for providers
without an entry.
-/

namespace ReviewChecks

namespace Toml

/-- The entry of a provider in the root table of a configuration. -/
def entryOf? (fields : Fields) (plugin : String) : Option Toml :=
  match fields.lookup "providers" with
  | some (.table _ entries) => entries.lookup plugin
  | _ => none

/-- The polling interval that the entry of a provider states: by name in a table, or as the first item of an array. -/
def statedInterval? : Toml → Option Toml
  | .table _ fields => fields.lookup "fetch_polling_interval_seconds"
  | .array (value :: _) => some value
  | _ => none

theorem eq_of_word64? {value : Toml} {word : UInt64} (read : value.word64? = some word) :
    value = .integer word.toNat := by
  unfold word64? at read
  split at read
  next number =>
    split at read
    next positive =>
      split at read
      next small =>
        rw [← Option.some.inj read]
        exact congrArg Toml.integer (Int.toNat_of_nonneg positive).symm
      next => cases read
    next => cases read
  next => cases read

theorem eq_of_wordField? {name : String} {default word : UInt64} {fields : Fields}
    (read : wordField? name default fields = some word) :
    Toml.integer word.toNat = (fields.lookup name).getD (.integer default.toNat) := by
  unfold wordField? at read
  split at read
  next value held => rw [held, Option.getD_some, eq_of_word64? read]
  next absent => rw [absent, Option.getD_none, Option.some.inj read]

end Toml

namespace ConfigFile

/-- The root table of a file; a file that is not there has none of the fields. -/
def root? : ConfigFile → Option Toml.Fields
  | .missing => some []
  | .directory => none
  | .bytes content => (String.fromUTF8? content).bind Toml.parse?

theorem regular_of_root? {file : ConfigFile} {fields : Toml.Fields} (root : file.root? = some fields) :
    Toml.Regular fields := by
  cases file with
  | missing => exact Option.some.inj root ▸ .empty
  | directory => cases root
  | bytes content =>
    obtain ⟨text, _, parsed⟩ := Option.bind_eq_some_iff.mp root
    exact Toml.regular_of_parse? parsed

end ConfigFile

namespace ModelConfig

open Toml

/-- A configuration is read from the root table of its file. -/
theorem load_eq_ok_iff {file : ConfigFile} {config : ModelConfig} :
    load file = .ok config ↔ ∃ fields, file.root? = some fields ∧ ofFields? fields = some config := by
  cases file with
  | missing =>
    have empty : ofFields? [] = some {} := rfl
    simp only [load, ConfigFile.root?, Except.ok.injEq, Option.some.injEq, exists_eq_left', empty]
  | directory => simp [load, ConfigFile.root?]
  | bytes content =>
    simp only [load, ConfigFile.root?]
    cases String.fromUTF8? content with
    | none => simp
    | some text =>
      simp only [Option.bind_some, ofToml?]
      cases parse? text with
      | none => simp
      | some fields => cases read : ofFields? fields <;> simp [read]

/-- Settings that are read from an entry have its interval, or a minute if it states none. -/
theorem interval_of_entry {entry : Toml} {settings : ProviderConfig}
    (read : ProviderConfig.ofToml? entry = some settings) :
    Toml.integer settings.pollingSeconds.toNat = (statedInterval? entry).getD (.integer 60) := by
  unfold ProviderConfig.ofToml? at read
  split at read
  next fields =>
    obtain ⟨_, _, read⟩ := Option.bind_eq_some_iff.mp read
    obtain ⟨seconds, field, read⟩ := Option.bind_eq_some_iff.mp read
    obtain rfl := Option.some.inj read
    exact eq_of_wordField? field
  next => exact Option.some.inj read ▸ rfl
  next value _ =>
    obtain ⟨seconds, word, rfl⟩ := Option.map_eq_some_iff.mp read
    exact (eq_of_word64? word).symm
  next => exact Option.some.inj read ▸ rfl
  next => cases read

/-- Values that are read one by one stand under the names of what they were read from. -/
private theorem lookup_of_mapM {α β : Type} {decode : α → Option β} {fields : List (String × α)}
    {pairs : List (String × β)}
    (read : fields.mapM (fun field => do
      let value ← decode field.2
      return (field.1, value)) = some pairs) :
    pairs.map Prod.fst = fields.map Prod.fst ∧
      ∀ name, (pairs.lookup name).map some = (fields.lookup name).map decode := by
  induction fields generalizing pairs with
  | nil =>
    obtain rfl := Option.some.inj read
    exact ⟨rfl, fun _ => rfl⟩
  | cons field fields ih =>
    rw [List.mapM_cons] at read
    obtain ⟨pair, own, read⟩ := Option.bind_eq_some_iff.mp read
    obtain ⟨others, more, read⟩ := Option.bind_eq_some_iff.mp read
    obtain ⟨value, decoded, same⟩ := Option.bind_eq_some_iff.mp own
    obtain rfl := Option.some.inj same
    obtain rfl := Option.some.inj read
    obtain ⟨names, lookups⟩ := ih more
    refine ⟨congrArg (field.1 :: ·) names, fun name => ?_⟩
    rw [List.lookup_cons, List.lookup_cons]
    cases name == field.1 with
    | true => exact congrArg some decoded.symm
    | false => exact lookups name

/-- The settings of the providers are read from their entries. -/
theorem find?_of_providersOfToml? {fields : Fields} (regular : Regular fields) {providers : Table ProviderConfig}
    (read : providersOfToml? (fields.lookup "providers") = some providers) (plugin : String) :
    (providers.find? plugin).map some = (entryOf? fields plugin).map ProviderConfig.ofToml? := by
  unfold providersOfToml? at read
  unfold entryOf?
  split at read
  next absent => rw [absent, ← Option.some.inj read, Table.find?_empty, Option.map_none, Option.map_none]
  next origin entries held =>
    obtain ⟨pairs, decoded, read⟩ := Option.bind_eq_some_iff.mp read
    obtain rfl := Option.some.inj read
    obtain ⟨names, lookups⟩ := lookup_of_mapM decoded
    have member := (Table.lookup_eq_some_iff_mem regular.nodup).mp held
    have distinct := (regular_of_table (regular.values _ member)).nodup
    rw [Table.find?_ofList (names ▸ distinct), held]
    exact lookups plugin
  next => cases read

/-- How often a provider is polled under a configuration that is read from a file: as is asked for when it is
registered, else as the file states for it. An entry among the providers of the file that states no interval stands for
a minute, whatever the default of the file is; that holds for a provider without an entry, or else a minute, too. -/
theorem interval_of_loaded {file : ConfigFile} {config : ModelConfig} (loaded : load file = .ok config) :
    ∃ fields, file.root? = some fields ∧ ∀ (plugin : String) (explicit : Option ProviderConfig),
      Toml.integer (config.providerConfig plugin explicit).pollingSeconds.toNat =
        match explicit, entryOf? fields plugin with
        | some settings, _ => .integer settings.pollingSeconds.toNat
        | none, some entry => (statedInterval? entry).getD (.integer 60)
        | none, none => (fields.lookup "default_polling_interval_seconds").getD (.integer 60) := by
  obtain ⟨fields, root, read⟩ := load_eq_ok_iff.mp loaded
  refine ⟨fields, root, fun plugin explicit => ?_⟩
  obtain ⟨_, _, read⟩ := Option.bind_eq_some_iff.mp read
  obtain ⟨throttle, _, read⟩ := Option.bind_eq_some_iff.mp read
  obtain ⟨timeout, _, read⟩ := Option.bind_eq_some_iff.mp read
  obtain ⟨seconds, default, read⟩ := Option.bind_eq_some_iff.mp read
  obtain ⟨providers, entries, read⟩ := Option.bind_eq_some_iff.mp read
  obtain rfl := Option.some.inj read
  have found := find?_of_providersOfToml? (ConfigFile.regular_of_root? root) entries plugin
  cases explicit with
  | some settings => rfl
  | none =>
    simp only [providerConfig]
    cases entry : entryOf? fields plugin with
    | some entry =>
      obtain ⟨settings, held, read⟩ := Option.map_eq_some_iff.mp (found.trans (congrArg _ entry))
      rw [held]
      exact interval_of_entry read.symm
    | none =>
      rw [entry, Option.map_none, Option.map_eq_none_iff] at found
      rw [found]
      exact eq_of_wordField? default

/-- A file with a default of half a minute and a provider's table in which nothing stands. -/
def untoldFile : ConfigFile :=
  .bytes "default_polling_interval_seconds = 30\n[providers.ci]\n".toUTF8

theorem root?_untoldFile :
    untoldFile.root? = some [("default_polling_interval_seconds", .integer 30),
      ("providers", .table .implied [("ci", .table .header [])])] := by
  have decoded (text : String) : String.fromUTF8? text.toUTF8 = some text := dif_pos text.isValidUTF8
  have header := isLine_dottedHeader isBareKey_providers "ci".toList
  have document := document_printLine "default_polling_interval_seconds" (by decide +kernel) 30
    (.line header .empty)
  rw [String.ofList_toList, String.ofList_toList] at document
  have shape : "default_polling_interval_seconds = 30\n[providers.ci]\n".toList =
      printLine "default_polling_interval_seconds" 30 ++
        ('[' :: "providers".toList ++ '.' :: printKey "ci".toList ++ [']'] ++ ['\n']) := by
    decide +kernel
  have read := statements?_of_document document (Nat.lt_succ_self _)
  rw [untoldFile, ConfigFile.root?, decoded, Option.bind_some, parse?, shape]
  exact (congrArg (Option.bind · build?) read).trans rfl

theorem load_untoldFile : load untoldFile = .ok (({ defaultPollingSeconds := 30 } : ModelConfig).setProvider "ci" {}) :=
  load_eq_ok_iff.mpr ⟨_, root?_untoldFile, by decide⟩

/-- The provider with the empty table is polled once in a minute, and others as the default of the file says. -/
theorem interval_of_loaded_untold :
    ∃ config, load untoldFile = .ok config ∧ (config.providerConfig "ci" none).pollingSeconds = 60 ∧
      (config.providerConfig "lint" none).pollingSeconds = 30 ∧
      (config.providerConfig "ci" (some ⟨5⟩)).pollingSeconds = 5 := by
  obtain ⟨fields, root, intervals⟩ := interval_of_loaded load_untoldFile
  obtain rfl := Option.some.inj (root?_untoldFile.symm.trans root)
  have read {left right : UInt64} (same : Toml.integer left.toNat = Toml.integer right.toNat) : left = right :=
    UInt64.toNat_inj.mp (Int.ofNat_inj.mp (Toml.integer.inj same))
  exact ⟨_, load_untoldFile, read (intervals "ci" none), read (intervals "lint" none), read (intervals "ci" (some ⟨5⟩))⟩

/-- A provider whose table states no interval is not polled as the default of the file says. -/
theorem not_interval_of_default :
    ¬ ∀ (file : ConfigFile) (config : ModelConfig), load file = .ok config → ∀ fields, file.root? = some fields →
      ∀ (plugin : String) (explicit : Option ProviderConfig),
        Toml.integer (config.providerConfig plugin explicit).pollingSeconds.toNat =
          match explicit with
          | some settings => .integer settings.pollingSeconds.toNat
          | none =>
            (((entryOf? fields plugin).bind statedInterval?).or
              (fields.lookup "default_polling_interval_seconds")).getD (.integer 60) := by
  intro claimed
  have same := claimed _ _ load_untoldFile _ root?_untoldFile "ci" none
  exact absurd (Toml.integer.inj same) (by decide)

end ModelConfig

end ReviewChecks
