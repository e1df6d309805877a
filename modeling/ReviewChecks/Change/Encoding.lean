import ReviewChecks.Change
import ReviewChecks.Run.Encoding

/-!
# Changes in JSON

The JSON forms of changes, revisions and commits. A change may be written with its revisions in any order.
-/

namespace ReviewChecks

def CommitInfo.toJson (commit : CommitInfo) : Json :=
  .record [("subject", .text commit.subject), ("message", .text commit.message)]

def CommitInfo.ofJson? (value : Json) : Option CommitInfo := do
  let record ← Json.Record.ofJson? ["subject", "message"] value
  return {
    subject := ← record.withDefault "subject" Json.text? ""
    message := ← record.withDefault "message" Json.text? "" }

def RevisionInfo.toJson (revision : RevisionInfo) : Json :=
  .record ([("_number", Json.word32 revision.number)] ++
    Json.optionalField "commit" CommitInfo.toJson revision.commit)

def RevisionInfo.ofJson? (value : Json) : Option RevisionInfo := do
  let record ← Json.Record.ofJson? ["_number", "commit"] value
  return {
    number := ← record.required "_number" Json.word32?
    commit := ← record.optional "commit" CommitInfo.ofJson? }

/-- A table as a JSON object, with its entries in the order of their names. -/
def Table.toJson {α : Type} (encode : α → Json) (table : Table α) : Json :=
  .ofEntries encode table.entries

def Table.ofJson? {α : Type} (decode : Json → Option α) (value : Json) : Option (Table α) :=
  (Json.entries? decode value).map Table.ofList

/-- A change as JSON, with its revisions in the given order. -/
def ChangeInfo.toJsonWith (change : ChangeInfo) (revisions : List (String × RevisionInfo)) : Json :=
  .record ([("_number", Json.word64 change.number), ("project", .text change.project)] ++
    Json.optionalField "current_revision" Json.text change.currentRevision ++
    [("revisions", .ofEntries RevisionInfo.toJson revisions)])

/-- A change as JSON, with its revisions in the order of their hashes. -/
def ChangeInfo.toJson (change : ChangeInfo) : Json :=
  change.toJsonWith change.revisions.entries

def ChangeInfo.ofJson? (value : Json) : Option ChangeInfo := do
  let record ← Json.Record.ofJson? ["_number", "project", "current_revision", "revisions"] value
  return {
    number := ← record.required "_number" Json.word64?
    project := ← record.required "project" Json.text?
    currentRevision := ← record.optional "current_revision" Json.text?
    revisions := ← record.withDefault "revisions" (Table.ofJson? RevisionInfo.ofJson?) .empty }

end ReviewChecks
