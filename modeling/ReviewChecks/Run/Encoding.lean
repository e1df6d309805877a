import ReviewChecks.Json.Record
import ReviewChecks.Run.Derived
import ReviewChecks.Time.Notation

/-!
# Runs in JSON

The JSON forms of runs and of everything in them. Absent optional fields are left out. A run's description and its
results stand side by side in one object; when such an object is read, the fields of the description are kept unread
until all fields have been seen, which is why they have to be retainable.
-/

namespace ReviewChecks

def RunStatus.ofJson? (value : Json) : Option RunStatus :=
  value.caseName?.bind RunStatus.ofName?

/-- The status that a value which was kept unread names. -/
def RunStatus.ofKeptJson? (value : Json) : Option RunStatus :=
  value.keptCaseName?.bind RunStatus.ofName?

def RunStatus.toJson (status : RunStatus) : Json :=
  .text status.name

def Category.ofJson? (value : Json) : Option Category :=
  value.caseName?.bind Category.ofName?

def Category.toJson (category : Category) : Json :=
  .text category.name

def StatusIcon.ofJson? (value : Json) : Option StatusIcon :=
  value.caseName?.bind StatusIcon.ofName?

def StatusIcon.toJson (icon : StatusIcon) : Json :=
  .text icon.name

def Timestamp.toJson (time : Timestamp) : Json :=
  .text time.print

def Timestamp.ofJson? (value : Json) : Option Timestamp :=
  value.text?.bind Timestamp.parse?

def Json.word32 (value : UInt32) : Json :=
  .nat value.toNat

def Json.word64 (value : UInt64) : Json :=
  .nat value.toNat

def Tag.toJson (tag : Tag) : Json :=
  .record ([("name", .text tag.name)] ++ Json.optionalField "tooltip" Json.text tag.tooltip)

def Tag.ofJson? (value : Json) : Option Tag := do
  let record ← Json.Record.ofJson? ["name", "tooltip"] value
  return {
    name := ← record.required "name" Json.text?
    tooltip := ← record.optional "tooltip" Json.text? }

def Link.toJson (link : Link) : Json :=
  .record ([("url", .text link.url)] ++ Json.optionalField "tooltip" Json.text link.tooltip ++
    [("primary", .bool link.primary)] ++ Json.optionalField "icon" Json.text link.icon)

def Link.ofJson? (value : Json) : Option Link := do
  let record ← Json.Record.ofJson? ["url", "tooltip", "primary", "icon"] value
  return {
    url := ← record.required "url" Json.text?
    tooltip := ← record.optional "tooltip" Json.text?
    primary := ← record.withDefault "primary" Json.bool? false
    icon := ← record.optional "icon" Json.text? }

/-- An action as JSON, without its callback. -/
def Action.toJson (action : Action) : Json :=
  .record ([("name", .text action.name)] ++ Json.optionalField "tooltip" Json.text action.tooltip ++
    [("primary", .bool action.primary), ("summary", .bool action.summary), ("disabled", .bool action.disabled)])

/-- The action of a JSON value, which has no callback. -/
def Action.ofJson? (value : Json) : Option Action := do
  let record ← Json.Record.ofJson? ["name", "tooltip", "primary", "summary", "disabled"] value
  return {
    name := ← record.required "name" Json.text?
    tooltip := ← record.optional "tooltip" Json.text?
    primary := ← record.withDefault "primary" Json.bool? false
    summary := ← record.withDefault "summary" Json.bool? false
    disabled := ← record.withDefault "disabled" Json.bool? false }

/-- What an action's callback is told, as JSON, with `null` for what is absent. -/
def ActionInvocation.toJson (invocation : ActionInvocation) : Json :=
  .record [("change", Json.word64 invocation.change), ("patchset", Json.word32 invocation.patchset),
    ("attempt", Json.nullable Json.word32 invocation.attempt),
    ("external_id", Json.nullable Json.text invocation.externalId),
    ("check_name", Json.nullable Json.text invocation.checkName), ("action_name", .text invocation.actionName)]

def ActionResult.toJson (result : ActionResult) : Json :=
  .record (Json.optionalField "message" Json.text result.message ++
    Json.optionalField "errorMessage" Json.text result.errorMessage ++
    [("shouldReload", .bool result.shouldReload)])

def ActionResult.ofJson? (value : Json) : Option ActionResult := do
  let record ← Json.Record.ofJson? ["message", "errorMessage", "shouldReload"] value
  return {
    message := ← record.optional "message" Json.text?
    errorMessage := ← record.optional "errorMessage" Json.text?
    shouldReload := ← record.withDefault "shouldReload" Json.bool? false }

def CheckResult.fieldNames : List String :=
  ["externalId", "category", "summary", "message", "tags", "links", "actions"]

def CheckResult.fields (result : CheckResult) : List (String × Json) :=
  Json.optionalField "externalId" Json.text result.externalId ++
    [("category", result.category.toJson), ("summary", .text result.summary)] ++
    Json.optionalField "message" Json.text result.message ++
    [("tags", .list Tag.toJson result.tags), ("links", .list Link.toJson result.links),
      ("actions", .list Action.toJson result.actions)]

def CheckResult.toJson (result : CheckResult) : Json :=
  .record result.fields

def CheckResult.ofJson? (value : Json) : Option CheckResult := do
  let record ← Json.Record.ofJson? fieldNames value
  return {
    externalId := ← record.optional "externalId" Json.text?
    category := ← record.required "category" Category.ofJson?
    summary := ← record.required "summary" Json.text?
    message := ← record.optional "message" Json.text?
    tags := ← record.withDefault "tags" (Json.items Tag.ofJson?) []
    links := ← record.withDefault "links" (Json.items Link.ofJson?) []
    actions := ← record.withDefault "actions" (Json.items Action.ofJson?) [] }

namespace RunInfo

def fieldNames : List String :=
  ["change", "patchset", "attempt", "externalId", "checkName", "checkDescription", "checkLink", "status",
    "statusDescription", "statusLink", "labelName", "actions", "scheduledTimestamp", "startedTimestamp",
    "finishedTimestamp"]

def fields (info : RunInfo) : List (String × Json) :=
  [("change", Json.word64 info.change), ("patchset", Json.word32 info.patchset)] ++
    Json.optionalField "attempt" Json.word32 info.attempt ++
    Json.optionalField "externalId" Json.text info.externalId ++
    [("checkName", .text info.checkName)] ++
    Json.optionalField "checkDescription" Json.text info.checkDescription ++
    Json.optionalField "checkLink" Json.text info.checkLink ++
    [("status", info.status.toJson)] ++
    Json.optionalField "statusDescription" Json.text info.statusDescription ++
    Json.optionalField "statusLink" Json.text info.statusLink ++
    Json.optionalField "labelName" Json.text info.labelName ++
    [("actions", .list Action.toJson info.actions)] ++
    Json.optionalField "scheduledTimestamp" Timestamp.toJson info.scheduledTimestamp ++
    Json.optionalField "startedTimestamp" Timestamp.toJson info.startedTimestamp ++
    Json.optionalField "finishedTimestamp" Timestamp.toJson info.finishedTimestamp

def toJson (info : RunInfo) : Json :=
  .record info.fields

/-- The description that a record holds, given how its status is read. -/
def ofRecord? (status? : Json → Option RunStatus) (record : Json.Record) : Option RunInfo := do
  return {
    change := ← record.required "change" Json.word64?
    patchset := ← record.required "patchset" Json.word32?
    attempt := ← record.optional "attempt" Json.word32?
    externalId := ← record.optional "externalId" Json.text?
    checkName := ← record.required "checkName" Json.text?
    checkDescription := ← record.optional "checkDescription" Json.text?
    checkLink := ← record.optional "checkLink" Json.text?
    status := ← record.required "status" status?
    statusDescription := ← record.optional "statusDescription" Json.text?
    statusLink := ← record.optional "statusLink" Json.text?
    labelName := ← record.optional "labelName" Json.text?
    actions := ← record.withDefault "actions" (Json.items Action.ofJson?) []
    scheduledTimestamp := ← record.optional "scheduledTimestamp" Timestamp.ofJson?
    startedTimestamp := ← record.optional "startedTimestamp" Timestamp.ofJson?
    finishedTimestamp := ← record.optional "finishedTimestamp" Timestamp.ofJson? }

def ofJson? (value : Json) : Option RunInfo :=
  (Json.Record.ofJson? fieldNames value).bind (ofRecord? RunStatus.ofJson?)

end RunInfo

namespace Run

/-- How many arrays and objects may lie within each other in a field that is kept unread. -/
def keptDepth : Nat := 126

def toJson (run : Run) : Json :=
  .record (run.info.fields ++ [("results", .list CheckResult.toJson run.results)])

/-- The run of a JSON object. -/
def ofJson? : Json → Option Run
  | .object fields => do
    let kept := fields.filter fun field => field.1 != some "results"
    guard (Json.fieldsRetainable keptDepth kept)
    let record ← Json.Record.ofFields? ["results"] fields
    let description ← Json.Record.ofFields? RunInfo.fieldNames kept
    return {
      info := ← RunInfo.ofRecord? RunStatus.ofKeptJson? description
      results := ← record.withDefault "results" (Json.items CheckResult.ofJson?) [] }
  | _ => none

end Run

/-- An attempt as JSON, with `null` for an absent number. -/
def AttemptDetail.toJson (detail : AttemptDetail) : Json :=
  .record [("attempt", Json.nullable Json.word32 detail.attempt), ("icon", detail.icon.toJson)]

def AttemptDetail.ofJson? (value : Json) : Option AttemptDetail := do
  let record ← Json.Record.ofJson? ["attempt", "icon"] value
  return {
    attempt := ← record.reached "attempt" Json.word32?
    icon := ← record.required "icon" StatusIcon.ofJson? }

def RunResult.toJson (result : RunResult) : Json :=
  .record (result.result.fields ++ [("internalResultId", .text result.id)])

/-- A derived run as JSON: the fields of its description, what is derived, and its results. -/
def CheckRun.toJson (run : CheckRun) : Json :=
  .record (run.info.fields ++ [("internalRunId", .text run.id), ("isLatestAttempt", .bool run.isLatestAttempt),
    ("isSingleAttempt", .bool run.isSingleAttempt),
    ("attemptDetails", .list AttemptDetail.toJson run.attemptDetails),
    ("results", .list RunResult.toJson run.results)])

end ReviewChecks
