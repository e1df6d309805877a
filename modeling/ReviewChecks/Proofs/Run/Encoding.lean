import Mathlib.Data.Option.Basic
import ReviewChecks.Proofs.Json.Retention
import ReviewChecks.Proofs.Time.Notation
import ReviewChecks.Run.Encoding

/-! # Reading runs that were written

Whatever a provider reports is read back from its JSON form, but for the callbacks of its actions, which are not
written (`Run.withoutCallbacks`). Results and runs are also held with further fields that are derived, so they are read
here from among any further fields (`CheckResult.ofJson?_among`, `Run.ofJson?_among`): these are passed over as long as
they have other names, and in a run as long as they can be kept unread.
-/

namespace ReviewChecks

open Json

@[simp] theorem RunStatus.ofJson?_toJson (status : RunStatus) : ofJson? status.toJson = some status :=
  ofName?_name status

@[simp] theorem RunStatus.ofKeptJson?_toJson (status : RunStatus) : ofKeptJson? status.toJson = some status :=
  ofName?_name status

@[simp] theorem Category.ofJson?_toJson (category : Category) : ofJson? category.toJson = some category :=
  ofName?_name category

@[simp] theorem StatusIcon.ofJson?_toJson (icon : StatusIcon) : ofJson? icon.toJson = some icon :=
  ofName?_name icon

@[simp] theorem Timestamp.ofJson?_toJson (time : Timestamp) : ofJson? time.toJson = some time := by
  rw [ofJson?, toJson, text?_text, Option.bind_some, parse?_print]

namespace Json

@[simp] theorem word32?_word32 (value : UInt32) : word32? (word32 value) = some value := by
  simp [word32, nat, word32?, UInt32.toNat_lt_size]

@[simp] theorem word64?_word64 (value : UInt64) : word64? (word64 value) = some value := by
  simp [word64, nat, word64?, UInt64.toNat_lt_size]

@[simp] theorem read?_word32 (value : Option UInt32) : Record.read? word32? (value.map word32) = some value :=
  Record.read?_map word32?_word32 (fun _ => Json.noConfusion) value

@[simp] theorem read?_nullable_word32 (value : Option UInt32) :
    Record.read? word32? (some (nullable word32 value)) = some value := by
  cases value with
  | none => rfl
  | some value => exact read?_word32 (some value)

@[simp] theorem read?_timestamp (value : Option Timestamp) :
    Record.read? Timestamp.ofJson? (value.map Timestamp.toJson) = some value :=
  Record.read?_map Timestamp.ofJson?_toJson (fun _ => Json.noConfusion) value

end Json

theorem Tag.ofJson?_toJson (tag : Tag) : ofJson? tag.toJson = some tag := by
  have written : tag.toJson = .record (present [("name", some (.text tag.name)),
      ("tooltip", tag.tooltip.map .text)]) := by
    simp [toJson]
  rw [ofJson?, written, Record.ofJson?_present (by simp)]
  simp [List.lookup_cons]

theorem Link.ofJson?_toJson (link : Link) : ofJson? link.toJson = some link := by
  have written : link.toJson = .record (present [("url", some (.text link.url)),
      ("tooltip", link.tooltip.map .text), ("primary", some (.bool link.primary)), ("icon", link.icon.map .text)]) := by
    simp [toJson]
  rw [ofJson?, written, Record.ofJson?_present (by simp)]
  simp [List.lookup_cons]

theorem Action.ofJson?_toJson (action : Action) : ofJson? action.toJson = some action.withoutCallback := by
  have written : action.toJson = .record (present [("name", some (.text action.name)),
      ("tooltip", action.tooltip.map .text), ("primary", some (.bool action.primary)),
      ("summary", some (.bool action.summary)), ("disabled", some (.bool action.disabled))]) := by
    simp [toJson]
  rw [ofJson?, written, Record.ofJson?_present (by simp)]
  simp [List.lookup_cons, withoutCallback]

theorem ActionResult.ofJson?_toJson (result : ActionResult) : ofJson? result.toJson = some result := by
  have written : result.toJson = .record (present [("message", result.message.map .text),
      ("errorMessage", result.errorMessage.map .text), ("shouldReload", some (.bool result.shouldReload))]) := by
    simp [toJson]
  rw [ofJson?, written, Record.ofJson?_present (by simp)]
  simp [List.lookup_cons]

theorem AttemptDetail.ofJson?_toJson (detail : AttemptDetail) : ofJson? detail.toJson = some detail := by
  have written : detail.toJson = .record (present [("attempt", some (nullable word32 detail.attempt)),
      ("icon", some detail.icon.toJson)]) := by
    simp [toJson]
  rw [ofJson?, written, Record.ofJson?_present (by simp)]
  simp [List.lookup_cons]

@[simp] theorem Json.items_tags (tags : List Tag) : items Tag.ofJson? (list Tag.toJson tags) = some tags := by
  rw [items_list Tag.ofJson?_toJson]
  exact congrArg some (List.map_id tags)

@[simp] theorem Json.items_links (links : List Link) : items Link.ofJson? (list Link.toJson links) = some links := by
  rw [items_list Link.ofJson?_toJson]
  exact congrArg some (List.map_id links)

@[simp] theorem Json.items_actions (actions : List Action) :
    items Action.ofJson? (list Action.toJson actions) = some (actions.map Action.withoutCallback) :=
  items_list Action.ofJson?_toJson actions

namespace CheckResult

/-- The result with actions that have no callbacks. -/
def withoutCallbacks (result : CheckResult) : CheckResult :=
  { result with actions := result.actions.map Action.withoutCallback }

/-- All fields of a result, with the values of those that are there. -/
def slots (result : CheckResult) : List (String × Option Json) :=
  [("externalId", result.externalId.map .text), ("category", some result.category.toJson),
    ("summary", some (.text result.summary)), ("message", result.message.map .text),
    ("tags", some (.list Tag.toJson result.tags)), ("links", some (.list Link.toJson result.links)),
    ("actions", some (.list Action.toJson result.actions))]

theorem fields_eq (result : CheckResult) : result.fields = present result.slots := by
  simp [fields, slots]

theorem map_fst_slots (result : CheckResult) : result.slots.map Prod.fst = fieldNames := rfl

/-- A result is read back from among further fields. -/
theorem ofJson?_among (result : CheckResult) {others : List (String × Option Json)}
    (distinct : ((result.slots ++ others).map Prod.fst).Nodup) :
    ofJson? (.record (present (result.slots ++ others))) = some result.withoutCallbacks := by
  rw [ofJson?, Record.ofJson?_present distinct]
  simp [slots, List.lookup_cons, withoutCallbacks]

theorem ofJson?_toJson (result : CheckResult) : ofJson? result.toJson = some result.withoutCallbacks := by
  rw [toJson, fields_eq, ← List.append_nil result.slots]
  exact ofJson?_among result (by simp [slots])

end CheckResult

namespace RunInfo

/-- The description with actions that have no callbacks. -/
def withoutCallbacks (info : RunInfo) : RunInfo :=
  { info with actions := info.actions.map Action.withoutCallback }

/-- All fields of a description, with the values of those that are there. -/
def slots (info : RunInfo) : List (String × Option Json) :=
  [("change", some (word64 info.change)), ("patchset", some (word32 info.patchset)),
    ("attempt", info.attempt.map word32), ("externalId", info.externalId.map .text),
    ("checkName", some (.text info.checkName)), ("checkDescription", info.checkDescription.map .text),
    ("checkLink", info.checkLink.map .text), ("status", some info.status.toJson),
    ("statusDescription", info.statusDescription.map .text), ("statusLink", info.statusLink.map .text),
    ("labelName", info.labelName.map .text), ("actions", some (.list Action.toJson info.actions)),
    ("scheduledTimestamp", info.scheduledTimestamp.map Timestamp.toJson),
    ("startedTimestamp", info.startedTimestamp.map Timestamp.toJson),
    ("finishedTimestamp", info.finishedTimestamp.map Timestamp.toJson)]

theorem fields_eq (info : RunInfo) : info.fields = present info.slots := by
  simp [fields, slots]

theorem map_fst_slots (info : RunInfo) : info.slots.map Prod.fst = fieldNames := rfl

/-- A description is read back from among further fields. -/
theorem ofRecord?_among (info : RunInfo) {status? : Json → Option RunStatus}
    (reads : status? info.status.toJson = some info.status) (others : List (String × Option Json)) :
    ofRecord? status? (.ofPresent (info.slots ++ others)) = some info.withoutCallbacks := by
  simp [ofRecord?, slots, List.lookup_cons, reads, withoutCallbacks]

theorem ofJson?_toJson (info : RunInfo) : ofJson? info.toJson = some info.withoutCallbacks := by
  have distinct : (info.slots.map Prod.fst).Nodup := by
    rw [map_fst_slots]
    decide
  rw [ofJson?, toJson, fields_eq, Record.ofJson?_present distinct, Option.bind_some, ← List.append_nil info.slots]
  exact ofRecord?_among info (RunStatus.ofJson?_toJson _) []

/-- A description can be kept unread. -/
theorem slotsRetainable (info : RunInfo) (limit : Nat) : SlotsRetainable (limit + 2) info.slots := by
  have text := @isRetainable_text (limit + 2)
  have time : ∀ time : Timestamp, isRetainable (limit + 2) time.toJson = true := fun time => text _
  have small : ∀ value : UInt32, isRetainable (limit + 2) (word32 value) = true := fun value =>
    isRetainable_nat (Nat.lt_trans value.toNat_lt_size (by decide))
  have action : ∀ action : Action, isRetainable (limit + 1) action.toJson = true := by
    intro action
    refine isRetainable_record fun field member => ?_
    simp only [optionalField, List.mem_append, List.mem_cons, List.not_mem_nil, or_false, Option.mem_toList,
      Option.map_eq_some_iff] at member
    rcases member with (rfl | ⟨_, _, rfl⟩) | rfl | rfl | rfl
    · exact isRetainable_text _
    · exact isRetainable_text _
    all_goals exact isRetainable_bool _
  exact .some (isRetainable_nat info.change.toNat_lt_size) <| .some (small _) <| .map small _ <| .map text _ <|
    .some (text _) <| .map text _ <| .map text _ <| .some (text _) <| .map text _ <| .map text _ <| .map text _ <|
    .some (isRetainable_list action) <| .map time _ <| .map time _ <| .map time _ .nil

end RunInfo

namespace Run

/-- The run with actions that have no callbacks. -/
def withoutCallbacks (run : Run) : Run where
  info := run.info.withoutCallbacks
  results := run.results.map CheckResult.withoutCallbacks

/-- A run is read back from among further fields that can be kept unread. -/
theorem ofJson?_among (info : RunInfo) {others : List (String × Option Json)} {results : Json}
    {read : List CheckResult} (distinct : ((info.slots ++ others ++ [("results", some results)]).map Prod.fst).Nodup)
    (kept : SlotsRetainable keptDepth others) (reads : items CheckResult.ofJson? results = some read) :
    ofJson? (.record (present (info.slots ++ others) ++ [("results", results)])) =
      some ⟨info.withoutCallbacks, read⟩ := by
  have all : present (info.slots ++ others) ++ [("results", results)] =
      present (info.slots ++ others ++ [("results", some results)]) := by
    rw [present_append (info.slots ++ others)]
    rfl
  have parts := List.nodup_append.mp (List.map_append ▸ distinct)
  have other : ∀ name ∈ (info.slots ++ others).map Prod.fst, name ≠ "results" := fun name listed =>
    parts.2.2 name listed "results" List.mem_cons_self
  have unread : ((present (info.slots ++ others) ++ [("results", results)]).map fun field =>
      ((some field.1, field.2) : Literal × Json)).filter (fun field => field.1 != some "results") =
      (present (info.slots ++ others)).map fun field => (some field.1, field.2) := by
    rw [List.map_append, List.filter_append, List.filter_eq_self.mpr]
    · simp
    · intro field member
      obtain ⟨own, listed, rfl⟩ := List.mem_map.mp member
      have name := other own.1 ((map_fst_present_sublist _).subset (List.mem_map_of_mem listed))
      simpa using name
  have retainable : fieldsRetainable keptDepth
      ((present (info.slots ++ others)).map fun field => (some field.1, field.2)) = true :=
    ((info.slotsRetainable 124).append kept).fieldsRetainable
  have last : (info.slots ++ others ++ [("results", some results)]).lookup "results" = some (some results) := by
    refine List.lookup_eq_some_iff.mpr ⟨info.slots ++ others, [], rfl, fun field member => ?_⟩
    simpa using (other field.1 (List.mem_map_of_mem member)).symm
  have given : (Record.ofPresent (info.slots ++ others ++ [("results", some results)])).withDefault "results"
      (items CheckResult.ofJson?) [] = some read := by
    rw [Record.withDefault_ofPresent, last]
    exact reads
  have described := RunInfo.ofRecord?_among info (RunStatus.ofKeptJson?_toJson info.status) others
  simp only [ofJson?, Json.record, unread, retainable]
  rw [all, Record.ofFields?_present distinct, Record.ofFields?_present parts.1]
  simp only [guard, ↓reduceIte, Option.pure_def, Option.bind_eq_bind, Option.bind_some, described, given]

theorem ofJson?_toJson (run : Run) : ofJson? run.toJson = some run.withoutCallbacks := by
  have distinct : (RunInfo.fieldNames ++ ["results"]).Nodup := by decide
  rw [toJson, RunInfo.fields_eq, ← List.append_nil run.info.slots]
  refine ofJson?_among run.info ?_ .nil (items_list CheckResult.ofJson?_toJson run.results)
  rw [List.append_nil, List.map_append, RunInfo.map_fst_slots]
  exact distinct

end Run

end ReviewChecks
