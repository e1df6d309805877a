import Mathlib.Data.List.Nodup
import Mathlib.Data.Option.Basic
import ReviewChecks.Config.File
import ReviewChecks.Proofs.Table
import ReviewChecks.Proofs.Toml.Documents

/-! # Configuration files are read back

A configuration is written as a document of which every line is read back: the settings of the model, then a header
and the settings of every provider. The headers of the providers imply one table around them, in which the providers
stand in the order in which they were written (`ModelConfig.build?_statements`). The table of the configuration does
not show this order, so the configuration is read back whatever it was (`ModelConfig.load_of_saved`).
-/

namespace ReviewChecks

open Toml

@[simp] theorem Toml.word64?_integer (value : UInt64) : word64? (.integer value.toNat) = some value := by
  simp [word64?, UInt64.toNat_lt_size]

namespace ModelConfig

/-- The statements of a provider. -/
def providerStatements (provider : String × ProviderConfig) : List Statement :=
  [.header ["providers", provider.1],
    .pair ["fetch_polling_interval_seconds"] (.integer provider.2.pollingSeconds.toNat)]

/-- The statements of all providers, which are a header of their own when there is none. -/
def providersStatements : List (String × ProviderConfig) → List Statement
  | [] => [.header ["providers"]]
  | provider :: rest => (provider :: rest).flatMap providerStatements

/-- The statements of a configuration whose providers are written in the given order. -/
def statements (config : ModelConfig) (providers : List (String × ProviderConfig)) : List Statement :=
  [.pair ["reload_throttle_ms"] (.integer config.reloadThrottle.toNat),
    .pair ["action_timeout_ms"] (.integer config.actionTimeout.toNat),
    .pair ["default_polling_interval_seconds"] (.integer config.defaultPollingSeconds.toNat)] ++
    providersStatements providers

variable {text : List Char} {following : List Statement}

theorem document_printLine (name : String) (bare : IsBareKey name.toList) (value : UInt64)
    (document : Document text following) :
    Document (printLine name value ++ text) (.pair [name] (.integer value.toNat) :: following) := by
  have line := isLine_pair bare value.toNat
  rw [String.ofList_toList] at line
  simpa [printLine] using Document.line line document

theorem isBareKey_providers : IsBareKey "providers".toList := by
  decide +kernel

theorem document_printProvider (provider : String × ProviderConfig) (document : Document text following) :
    Document (printProvider provider.1 provider.2 ++ text) (providerStatements provider ++ following) := by
  have seconds := document_printLine "fetch_polling_interval_seconds" (by decide +kernel)
    provider.2.pollingSeconds document
  have header := isLine_dottedHeader isBareKey_providers provider.1.toList
  rw [String.ofList_toList, String.ofList_toList] at header
  have shape : printProvider provider.1 provider.2 ++ text =
      '[' :: "providers".toList ++ '.' :: printKey provider.1.toList ++ [']'] ++
        '\n' :: (printLine "fetch_polling_interval_seconds" provider.2.pollingSeconds ++ text) := by
    unfold printProvider
    generalize printLine _ _ = line
    simp
  rw [shape]
  exact Document.line header seconds

theorem document_printProviders (provider : String × ProviderConfig) (rest : List (String × ProviderConfig)) :
    Document (printProviders (provider :: rest)) ((provider :: rest).flatMap providerStatements) := by
  induction rest generalizing provider with
  | nil =>
    have document := document_printProvider provider .empty
    rw [List.append_nil, List.append_nil] at document
    rw [List.flatMap_singleton]
    exact document
  | cons next rest ih => exact document_printProvider provider (.blank (ih next))

/-- A written configuration is a document with its statements. -/
theorem document_printWith (config : ModelConfig) (providers : List (String × ProviderConfig)) :
    Document (config.printWith providers) (config.statements providers) := by
  have tables : Document (printProviders providers) (providersStatements providers) := by
    cases providers with
    | nil =>
      have header := isLine_header isBareKey_providers
      rw [String.ofList_toList] at header
      exact Document.line header .empty
    | cons provider rest => exact document_printProviders provider rest
  have seconds := document_printLine "default_polling_interval_seconds" (by decide +kernel)
    config.defaultPollingSeconds (.blank tables)
  have timeout := document_printLine "action_timeout_ms" (by decide +kernel) config.actionTimeout seconds
  have throttle := document_printLine "reload_throttle_ms" (by decide +kernel) config.reloadThrottle timeout
  rw [printWith, List.append_assoc, List.append_assoc]
  exact throttle

/-- The fields of the model's own settings. -/
def settingsFields (config : ModelConfig) : Fields :=
  [("reload_throttle_ms", .integer config.reloadThrottle.toNat),
    ("action_timeout_ms", .integer config.actionTimeout.toNat),
    ("default_polling_interval_seconds", .integer config.defaultPollingSeconds.toNat)]

/-- The field of a provider. -/
def providerField (provider : String × ProviderConfig) : String × Toml :=
  (provider.1, .table .header [("fetch_polling_interval_seconds", .integer provider.2.pollingSeconds.toNat)])

/-- The field of some providers, which is not there as long as there is none. -/
def providersField : List (String × ProviderConfig) → Fields
  | [] => []
  | provider :: rest => [("providers", .table .implied ((provider :: rest).map providerField))]

variable {config : ModelConfig}

theorem map_fst_providerField (providers : List (String × ProviderConfig)) :
    (providers.map providerField).map Prod.fst = providers.map Prod.fst := by
  rw [List.map_map]
  rfl

theorem providers_not_mem (config : ModelConfig) : "providers" ∉ (settingsFields config).map Prod.fst := by
  simp [settingsFields]

/-- The statements of one more provider put its field behind those of the providers before it. -/
theorem foldlM_providerStatements {provider : String × ProviderConfig} {done : List (String × ProviderConfig)}
    (new : provider.1 ∉ done.map Prod.fst) (current : List String) :
    (providerStatements provider).foldlM Draft.add? ⟨settingsFields config ++ providersField done, current⟩ =
      some ⟨settingsFields config ++ providersField (done ++ [provider]), ["providers", provider.1]⟩ := by
  have absent := providers_not_mem config
  have header : Draft.add? ⟨settingsFields config ++ providersField done, current⟩
      (.header ["providers", provider.1]) = some ⟨settingsFields config ++
        [("providers", .table .implied (done.map providerField ++ [(provider.1, .table .header [])]))],
        ["providers", provider.1]⟩ := by
    rw [Draft.add?, Option.map_eq_some_iff]
    refine ⟨_, ?_, rfl⟩
    cases done with
    | nil =>
      rw [providersField, List.append_nil]
      exact openTable?_implied absent
    | cons first rest => exact openTable?_beside absent (map_fst_providerField _ ▸ new)
  have field : providersField (done ++ [provider]) =
      [("providers", .table .implied (done.map providerField ++ [providerField provider]))] := by
    cases done <;> simp [providersField]
  have pair : Draft.add? ⟨settingsFields config ++
        [("providers", .table .implied (done.map providerField ++ [(provider.1, .table .header [])]))],
        ["providers", provider.1]⟩
      (.pair ["fetch_polling_interval_seconds"] (.integer provider.2.pollingSeconds.toNat)) =
      some ⟨settingsFields config ++ providersField (done ++ [provider]), ["providers", provider.1]⟩ := by
    rw [field, Draft.add?, splitKey?]
    simp only [List.getLast?_singleton, List.dropLast_singleton, Option.map_some, Option.bind_eq_bind,
      Option.bind_some, within?_define? absent (map_fst_providerField done ▸ new)]
    rfl
  simp only [providerStatements, List.foldlM_cons, List.foldlM_nil, header, pair, Option.bind_eq_bind,
    Option.bind_some, Option.pure_def]

/-- The statements of some providers put their fields behind those of the providers before them, in their order. -/
theorem foldlM_flatMap_providerStatements (config : ModelConfig) (rest done : List (String × ProviderConfig))
    (current : List String) (distinct : ((done ++ rest).map Prod.fst).Nodup) :
    ((rest.flatMap providerStatements).foldlM Draft.add?
        ⟨settingsFields config ++ providersField done, current⟩).map (·.root) =
      some (settingsFields config ++ providersField (done ++ rest)) := by
  induction rest generalizing done current with
  | nil => rw [List.append_nil]; rfl
  | cons provider rest ih =>
    have new : provider.1 ∉ done.map Prod.fst := by
      rw [List.map_append] at distinct
      exact fun member => List.disjoint_of_nodup_append distinct member List.mem_cons_self
    rw [List.flatMap_cons, List.foldlM_append, foldlM_providerStatements new, Option.bind_eq_bind, Option.bind_some]
    have behind : done ++ provider :: rest = done ++ [provider] ++ rest := List.append_cons ..
    rw [behind] at distinct ⊢
    exact ih _ _ distinct

/-- The root table of a written configuration: the settings, then the providers as they were written. -/
theorem build?_statements (config : ModelConfig) {providers : List (String × ProviderConfig)}
    (distinct : (providers.map Prod.fst).Nodup) :
    ∃ origin, build? (config.statements providers) =
      some (settingsFields config ++ [("providers", .table origin (providers.map providerField))]) := by
  have settings : build? (config.statements providers) =
      ((providersStatements providers).foldlM Draft.add? ⟨settingsFields config, []⟩).map (·.root) := by
    rw [build?, statements, List.foldlM_append]
    rfl
  rw [settings]
  cases providers with
  | nil => exact ⟨.header, rfl⟩
  | cons provider rest =>
    refine ⟨.implied, ?_⟩
    have tables := foldlM_flatMap_providerStatements config (provider :: rest) [] [] distinct
    rwa [providersField, List.append_nil] at tables

theorem ofToml?_providerField (provider : String × ProviderConfig) :
    ProviderConfig.ofToml? (providerField provider).2 = some provider.2 := by
  simp [providerField, ProviderConfig.ofToml?, othersReadable, fieldsReadable, wordField?]

/-- The providers are read from a table of theirs in any order. -/
theorem providersOfToml?_of_perm {providers : Table ProviderConfig} {written : List (String × ProviderConfig)}
    (order : written.Perm providers.entries) (origin : Origin) :
    providersOfToml? (some (.table origin (written.map providerField))) = some providers := by
  have read : (written.map providerField).mapM (fun field => do
      let settings ← ProviderConfig.ofToml? field.2
      return (field.1, settings)) = some written := by
    rw [List.mapM_map]
    simp only [Function.comp_def, ofToml?_providerField]
    exact (List.mapM_pure (f := id)).trans (congrArg some (List.map_id written))
  simp only [providersOfToml?]
  rw [read, ← Table.ofList_of_perm order]
  rfl

theorem ofFields?_written {written : List (String × ProviderConfig)}
    (order : written.Perm config.providers.entries) (origin : Origin) :
    ofFields? (settingsFields config ++ [("providers", .table origin (written.map providerField))]) = some config := by
  have providers := providersOfToml?_of_perm order origin
  simp [ofFields?, settingsFields, othersReadable, fieldsReadable, wordField?, List.lookup_cons, providers]

/-- The text of a configuration is read as this configuration, in whatever order its providers are written. -/
theorem ofToml?_printWith {written : List (String × ProviderConfig)}
    (order : written.Perm config.providers.entries) :
    ofToml? (String.ofList (config.printWith written)) = some config := by
  have distinct : (written.map Prod.fst).Nodup := (order.map Prod.fst).nodup_iff.mpr config.providers.nodup_names
  obtain ⟨origin, built⟩ := build?_statements config distinct
  have mark : skipByteOrderMark (config.printWith written) = config.printWith written := by
    have name : IsBareKey "reload_throttle_ms".toList := by decide +kernel
    unfold skipByteOrderMark
    split
    next same =>
      simp only [printWith, printLine, List.append_assoc] at same
      exact (name.append_ne_cons (by decide) _ _ same).elim
    next => rfl
  have read := statements?_of_document (config.document_printWith written) (Nat.lt_succ_self _)
  rw [ofToml?, parse?, String.toList_ofList, mark, read, Option.bind_some, built, Option.bind_some]
  exact ofFields?_written order origin

theorem load_bytes_of_ofToml? {text : String} (read : ofToml? text = some config) :
    load (.bytes text.toUTF8) = .ok config := by
  have decoded : String.fromUTF8? text.toUTF8 = some text := dif_pos text.isValidUTF8
  rw [load, decoded]
  simp only [read]

/-- Whatever a configuration is and wherever it is written, the written file is read as this configuration, also when
its providers are written in another order. -/
theorem load_of_saved (config : ModelConfig) :
    (∀ target text, config.save target = .ok text → load (.bytes text.toUTF8) = .ok config) ∧
      ∀ written : List (String × ProviderConfig), written.Perm config.providers.entries →
        load (.bytes (String.ofList (config.printWith written)).toUTF8) = .ok config := by
  constructor
  · intro target text saved
    cases target with
    | free =>
      obtain rfl := Except.ok.inj saved
      exact load_bytes_of_ofToml? (ofToml?_printWith (.refl _))
    | underFile => cases saved
  · intro written order
    exact load_bytes_of_ofToml? (ofToml?_printWith order)

/-- The empty name and one with both quotes, a line break and a control character, written with the later one first. -/
theorem load_of_saved_oddNames :
    let config := (({} : ModelConfig).setProvider "" ⟨0⟩).setProvider "\"'\n\x7f" ⟨18446744073709551615⟩
    let written := config.providers.entries.reverse
    String.ofList (config.printWith written) =
        "reload_throttle_ms = 1000\naction_timeout_ms = 5000\ndefault_polling_interval_seconds = 60\n\n" ++
        "[providers.\"\\\"'\\n\\u007F\"]\nfetch_polling_interval_seconds = 18446744073709551615\n\n" ++
        "[providers.\"\"]\nfetch_polling_interval_seconds = 0\n" ∧
      written.Perm config.providers.entries ∧ config.save .free = .ok config.toToml ∧
      load (.bytes config.toToml.toUTF8) = .ok config ∧
      load (.bytes (String.ofList (config.printWith written)).toUTF8) = .ok config := by
  intro config written
  have order : written.Perm config.providers.entries := List.reverse_perm _
  have saved : config.save .free = .ok config.toToml := rfl
  exact ⟨by decide +kernel, order, saved, (load_of_saved config).1 _ _ saved, (load_of_saved config).2 written order⟩

end ModelConfig

end ReviewChecks
