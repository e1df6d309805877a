import ReviewChecks.Config.Encoding
import ReviewChecks.Proofs.Json.Printing
import ReviewChecks.Proofs.Run.Encoding
import ReviewChecks.Proofs.Table

/-! # Texts that are read back

A value that was read from a JSON text is read again, unchanged, from the text that it is written as. Three facts make
this up: every JSON value is read back from its text (`Json.parse?_print`), every value of a type is read back from its
JSON form but for callbacks (`Run.ofJson?_toJson` and its like), and what was read has no callbacks. The entries of a
table may be written in any order: the table that is read back is the same (`Table.ofJson?_ofEntries`).
-/

namespace ReviewChecks

open Json

theorem Json.entries?_ofEntries {α : Type} {encode : α → Json} {decode : Json → Option α}
    (reads : ∀ value, decode (encode value) = some value) (entries : List (String × α)) :
    entries? decode (ofEntries encode entries) = some entries := by
  rw [ofEntries, record, entries?, List.mapM_map, List.mapM_map]
  simp only [Function.comp_def, reads]
  exact (List.mapM_pure (f := id)).trans (congrArg some (List.map_id entries))

/-- A table is read back from its entries in any order. -/
theorem Table.ofJson?_ofEntries {α : Type} {encode : α → Json} {decode : Json → Option α}
    (reads : ∀ value, decode (encode value) = some value) {table : Table α} {entries : List (String × α)}
    (order : entries.Perm table.entries) : ofJson? decode (ofEntries encode entries) = some table := by
  rw [ofJson?, entries?_ofEntries reads, Option.map_some, ofList_of_perm order]

theorem CommitInfo.ofJson?_toJson (commit : CommitInfo) : ofJson? commit.toJson = some commit := by
  have written : commit.toJson = .record (present [("subject", some (.text commit.subject)),
      ("message", some (.text commit.message))]) := by
    simp [toJson]
  rw [ofJson?, written, Record.ofJson?_present (by simp)]
  simp [List.lookup_cons]

theorem RevisionInfo.ofJson?_toJson (revision : RevisionInfo) : ofJson? revision.toJson = some revision := by
  have written : revision.toJson = .record (present [("_number", some (word32 revision.number)),
      ("commit", revision.commit.map CommitInfo.toJson)]) := by
    simp [toJson]
  have commit := Record.read?_map CommitInfo.ofJson?_toJson (fun _ => Json.noConfusion) revision.commit
  rw [ofJson?, written, Record.ofJson?_present (by simp)]
  simp [List.lookup_cons, commit]

theorem ChangeInfo.ofJson?_toJsonWith {change : ChangeInfo} {revisions : List (String × RevisionInfo)}
    (order : revisions.Perm change.revisions.entries) : ofJson? (change.toJsonWith revisions) = some change := by
  have written : change.toJsonWith revisions = .record (present [("_number", some (word64 change.number)),
      ("project", some (.text change.project)), ("current_revision", change.currentRevision.map .text),
      ("revisions", some (ofEntries RevisionInfo.toJson revisions))]) := by
    simp [toJsonWith]
  rw [ofJson?, written, Record.ofJson?_present (by simp)]
  simp [List.lookup_cons, Table.ofJson?_ofEntries RevisionInfo.ofJson?_toJson order]

theorem ProviderConfig.ofJson?_toJson (config : ProviderConfig) : ofJson? config.toJson = some config := by
  have written : config.toJson =
      .record (present [("fetch_polling_interval_seconds", some (word64 config.pollingSeconds))]) := rfl
  rw [ofJson?, written, Record.ofJson?_present (by simp)]
  simp

theorem ModelConfig.ofJson?_toJsonWith {config : ModelConfig} {providers : List (String × ProviderConfig)}
    (order : providers.Perm config.providers.entries) : ofJson? (config.toJsonWith providers) = some config := by
  have written : config.toJsonWith providers = .record (present [
      ("reload_throttle_ms", some (word64 config.reloadThrottle)),
      ("action_timeout_ms", some (word64 config.actionTimeout)),
      ("default_polling_interval_seconds", some (word64 config.defaultPollingSeconds)),
      ("providers", some (ofEntries ProviderConfig.toJson providers))]) := rfl
  rw [ofJson?, written, Record.ofJson?_present (by simp)]
  simp [List.lookup_cons, Table.ofJson?_ofEntries ProviderConfig.ofJson?_toJson order]

namespace Json

variable {α : Type} {decode : Json → Option α}

theorem exists_of_mem_items {json : Json} {values : List α} (read : items decode json = some values) :
    ∀ value ∈ values, ∃ item, decode item = some value := by
  cases json with
  | array found =>
    rw [items] at read
    induction found generalizing values with
    | nil =>
      obtain rfl := Option.some.inj read
      intro value member
      cases member
    | cons item found ih =>
      simp only [List.mapM_cons, Option.bind_eq_bind, Option.bind_eq_some_iff, Option.pure_def,
        Option.some.injEq] at read
      obtain ⟨first, own, others, rest, rfl⟩ := read
      intro value member
      rcases List.mem_cons.mp member with rfl | member
      · exact ⟨item, own⟩
      · exact ih rest value member
  | null | bool | number | string | object => cases read

/-- The items of a list that may be left out. -/
theorem Record.exists_of_mem_withDefault {record : Record} {name : String} {values : List α}
    (read : record.withDefault name (items decode) [] = some values) :
    ∀ value ∈ values, ∃ item, decode item = some value := by
  unfold withDefault at read
  split at read
  · exact exists_of_mem_items read
  all_goals
    obtain rfl := Option.some.inj read
    intro value member
    cases member

end Json

theorem Action.withoutCallback_of_ofJson? {json : Json} {action : Action} (read : ofJson? json = some action) :
    action.withoutCallback = action := by
  simp only [ofJson?, Option.bind_eq_bind, Option.bind_eq_some_iff, Option.pure_def, Option.some.injEq] at read
  obtain ⟨_, _, _, _, _, _, _, _, _, _, _, _, rfl⟩ := read
  rfl

/-- Actions that were read have no callbacks. -/
theorem Action.map_withoutCallback_of_read {actions : List Action}
    (read : ∀ action ∈ actions, ∃ json, ofJson? json = some action) :
    actions.map withoutCallback = actions := by
  have same : ∀ action ∈ actions, action.withoutCallback = action := by
    intro action member
    obtain ⟨json, own⟩ := read action member
    exact withoutCallback_of_ofJson? own
  exact (List.map_congr_left same).trans (List.map_id actions)

theorem CheckResult.withoutCallbacks_of_ofJson? {json : Json} {result : CheckResult}
    (read : ofJson? json = some result) : result.withoutCallbacks = result := by
  simp only [ofJson?, Option.bind_eq_bind, Option.bind_eq_some_iff, Option.pure_def, Option.some.injEq] at read
  obtain ⟨_, _, _, _, _, _, _, _, _, _, _, _, _, _, actions, found, rfl⟩ := read
  rw [withoutCallbacks, Action.map_withoutCallback_of_read (Record.exists_of_mem_withDefault found)]

theorem RunInfo.withoutCallbacks_of_ofRecord? {status? : Json → Option RunStatus} {record : Json.Record}
    {info : RunInfo} (read : ofRecord? status? record = some info) : info.withoutCallbacks = info := by
  -- Eleven fields stand before the actions, and three behind them.
  iterate 11 obtain ⟨_, _, read⟩ := Option.bind_eq_some_iff.mp read
  obtain ⟨actions, found, read⟩ := Option.bind_eq_some_iff.mp read
  iterate 3 obtain ⟨_, _, read⟩ := Option.bind_eq_some_iff.mp read
  obtain rfl := Option.some.inj read
  rw [withoutCallbacks, Action.map_withoutCallback_of_read (Record.exists_of_mem_withDefault found)]

theorem Run.withoutCallbacks_of_ofJson? {json : Json} {run : Run} (read : ofJson? json = some run) :
    run.withoutCallbacks = run := by
  cases json with
  | object fields =>
    simp only [ofJson?, Option.bind_eq_bind, Option.bind_eq_some_iff, Option.pure_def, Option.some.injEq] at read
    obtain ⟨_, _, _, _, _, _, info, described, results, found, rfl⟩ := read
    have same : ∀ result ∈ results, result.withoutCallbacks = result := by
      intro result member
      obtain ⟨item, own⟩ := Record.exists_of_mem_withDefault found result member
      exact CheckResult.withoutCallbacks_of_ofJson? own
    rw [withoutCallbacks, RunInfo.withoutCallbacks_of_ofRecord? described, List.map_congr_left same]
    exact congrArg (Run.mk info) (List.map_id results)
  | null | bool | number | string | array => cases read

/-- The one JSON value that a value is written as. -/
def Json.IsFormOf {α : Type} (encode : α → Json) (value : α) (json : Json) : Prop :=
  json = encode value

/-- A JSON value that a change may be written as: its revisions come in some order. -/
def ChangeInfo.IsWrittenAs (change : ChangeInfo) (json : Json) : Prop :=
  ∃ revisions : List (String × RevisionInfo), revisions.Perm change.revisions.entries ∧
    json = change.toJsonWith revisions

/-- A JSON value that a configuration may be written as: its providers come in some order. -/
def ModelConfig.IsWrittenAs (config : ModelConfig) (json : Json) : Prop :=
  ∃ providers : List (String × ProviderConfig), providers.Perm config.providers.entries ∧
    json = config.toJsonWith providers

/-- Whatever value a text is read as can be written, and is read again from every text that it may be written as. -/
def RoundTrips {α : Type} (written : α → Json → Prop) (decode : Json → Option α) : Prop :=
  ∀ (text : String) (value : α), (parse? text).bind decode = some value →
    (∃ json, written value json) ∧ ∀ json, written value json → (parse? json.print).bind decode = some value

theorem roundTrips_of_decoded {α : Type} {written : α → Json → Prop} {decode : Json → Option α}
    (writable : ∀ value, ∃ json, written value json)
    (back : ∀ source value, decode source = some value → ∀ json, written value json → decode json = some value) :
    RoundTrips written decode := by
  intro text value read
  obtain ⟨source, _, decoded⟩ := Option.bind_eq_some_iff.mp read
  refine ⟨writable value, fun json form => ?_⟩
  rw [parse?_print, Option.bind_some, back source value decoded json form]

theorem roundTrips_of_form {α : Type} {encode : α → Json} {decode : Json → Option α}
    (back : ∀ source value, decode source = some value → decode (encode value) = some value) :
    RoundTrips (IsFormOf encode) decode := by
  refine roundTrips_of_decoded (fun value => ⟨encode value, rfl⟩) fun source value read json form => ?_
  rw [form, back source value read]

/-- Every value that a JSON text is read as, be it a run, a part of one, what an action came to, a change, a part of
one, or a configuration, is read again from every text that it may be written as. -/
theorem texts_roundTrip :
    RoundTrips (IsFormOf Run.toJson) Run.ofJson? ∧ RoundTrips (IsFormOf RunInfo.toJson) RunInfo.ofJson? ∧
    RoundTrips (IsFormOf CheckResult.toJson) CheckResult.ofJson? ∧
    RoundTrips (IsFormOf Action.toJson) Action.ofJson? ∧
    RoundTrips (IsFormOf ActionResult.toJson) ActionResult.ofJson? ∧
    RoundTrips (IsFormOf Link.toJson) Link.ofJson? ∧ RoundTrips (IsFormOf Tag.toJson) Tag.ofJson? ∧
    RoundTrips (IsFormOf AttemptDetail.toJson) AttemptDetail.ofJson? ∧
    RoundTrips ChangeInfo.IsWrittenAs ChangeInfo.ofJson? ∧
    RoundTrips (IsFormOf RevisionInfo.toJson) RevisionInfo.ofJson? ∧
    RoundTrips (IsFormOf CommitInfo.toJson) CommitInfo.ofJson? ∧
    RoundTrips (IsFormOf ProviderConfig.toJson) ProviderConfig.ofJson? ∧
    RoundTrips ModelConfig.IsWrittenAs ModelConfig.ofJson? := by
  refine ⟨?run, ?info, ?result, ?action, ?_, ?_, ?_, ?_, ?change, ?_, ?_, ?_, ?config⟩
  case run =>
    refine roundTrips_of_form fun source run read => ?_
    rw [Run.ofJson?_toJson, Run.withoutCallbacks_of_ofJson? read]
  case info =>
    refine roundTrips_of_form fun source info read => ?_
    obtain ⟨record, _, described⟩ := Option.bind_eq_some_iff.mp read
    rw [RunInfo.ofJson?_toJson, RunInfo.withoutCallbacks_of_ofRecord? described]
  case result =>
    refine roundTrips_of_form fun source result read => ?_
    rw [CheckResult.ofJson?_toJson, CheckResult.withoutCallbacks_of_ofJson? read]
  case action =>
    refine roundTrips_of_form fun source action read => ?_
    rw [Action.ofJson?_toJson, Action.withoutCallback_of_ofJson? read]
  case change =>
    refine roundTrips_of_decoded (fun change => ⟨change.toJson, _, .refl _, rfl⟩) ?_
    rintro source change _ json ⟨revisions, order, rfl⟩
    exact ChangeInfo.ofJson?_toJsonWith order
  case config =>
    refine roundTrips_of_decoded (fun config => ⟨config.toJson, _, .refl _, rfl⟩) ?_
    rintro source config _ json ⟨providers, order, rfl⟩
    exact ModelConfig.ofJson?_toJsonWith order
  all_goals
    refine roundTrips_of_form fun source value _ => ?_
    exact value.ofJson?_toJson

/-- A leap second at the end of a year. -/
def leapSecond : Timestamp where
  date := ⟨2016, 12, 31, Nat.succ_pos 30, by decide⟩
  hour := 23
  minute := 59
  second := 60
  nanosecond := 500000000
  hour_lt := by decide
  minute_lt := by decide
  second_le := by decide
  nanosecond_lt := by decide
  year_mem := by decide

/-- A change with three revisions, each known by its hash and its number. -/
def rebased : ChangeInfo :=
  { number := 42, project := "tools",
    revisions := .ofList [("beef", ⟨2, none⟩), ("abad", ⟨1, none⟩), ("c0de", ⟨3, none⟩)] }

/-- A run that started in a leap second, as clocks in New York show it, with a check name that has to be escaped; and a
change that is read with its revisions in one order and written with them in another, neither that of their hashes. -/
theorem texts_roundTrip_leapSecond :
    let runText := "\x7b\"change\":18446744073709551615,\"patchset\":1,\"checkName\":\"\\n\\ud83d\\ude00\"," ++
      "\"status\":\"COMPLETED\",\"startedTimestamp\":\"2016-12-31T18:59:60.5-05:00\"\x7d"
    let info : RunInfo :=
      { change := 18446744073709551615, patchset := 1, checkName := "\n😀", startedTimestamp := some leapSecond }
    let run : Run := { info }
    let changeText := "\x7b\"_number\":42,\"project\":\"tools\",\"revisions\":\x7b\"beef\":\x7b\"_number\":2\x7d," ++
      "\"abad\":\x7b\"_number\":1\x7d,\"c0de\":\x7b\"_number\":3\x7d\x7d\x7d"
    ((parse? runText).bind Run.ofJson? = some run ∧ (parse? run.toJson.print).bind Run.ofJson? = some run) ∧
    (parse? changeText).bind ChangeInfo.ofJson? = some rebased ∧
      (parse? (rebased.toJsonWith rebased.revisions.entries.reverse).print).bind ChangeInfo.ofJson? = some rebased := by
  intro runText info run changeText
  obtain ⟨runs, _, _, _, _, _, _, _, changes, _⟩ := texts_roundTrip
  have readRun : (parse? runText).bind Run.ofJson? = some run := by decide +kernel
  have readChange : (parse? changeText).bind ChangeInfo.ofJson? = some rebased := by decide +kernel
  exact ⟨⟨readRun, (runs runText run readRun).2 _ rfl⟩, readChange,
    (changes changeText rebased readChange).2 _ ⟨_, List.reverse_perm _, rfl⟩⟩

end ReviewChecks
