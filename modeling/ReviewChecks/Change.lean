import ReviewChecks.Table

/-!
# Changes

A change under review and its revisions. Each revision has a commit hash, by which the change keeps it, and a number,
its patchset.
-/

namespace ReviewChecks

/-- The message of a commit and its first line. -/
structure CommitInfo where
  subject : String := ""
  message : String := ""
deriving DecidableEq, Repr, Inhabited

structure RevisionInfo where
  number : UInt32
  commit : Option CommitInfo := none
deriving DecidableEq, Repr

/-- A change with its revisions by commit hash. -/
structure ChangeInfo where
  number : UInt64
  project : String
  currentRevision : Option String := none
  revisions : Table RevisionInfo := .empty
deriving DecidableEq

/-- The characters before the first line end, which is a line feed or a carriage return with a line feed. -/
def firstLineChars : List Char → List Char
  | [] => []
  | '\n' :: _ => []
  | '\r' :: '\n' :: _ => []
  | c :: rest => c :: firstLineChars rest

/-- The first line of a text, empty when the text is. -/
def firstLine (text : String) : String :=
  String.ofList (firstLineChars text.toList)

def CommitInfo.ofMessage (message : String) : CommitInfo where
  subject := firstLine message
  message := message

/-- The greater of two patchsets, where an absent one is below all others. -/
def laterPatchset : Option UInt32 → UInt32 → Option UInt32
  | none, number => some number
  | some known, number => some (if known < number then number else known)

namespace ChangeInfo

def ofNumber (number : UInt64) (project : String) : ChangeInfo where
  number := number
  project := project

/-- The change with one more revision, which becomes the current one; a revision of the same commit is replaced. -/
def addRevision (change : ChangeInfo) (sha : String) (number : UInt32) (message : String) : ChangeInfo :=
  { change with
    currentRevision := some sha
    revisions := change.revisions.insert sha { number, commit := some (.ofMessage message) } }

/-- The commit hash of the revision with the given number. Of several revisions with that number it is the one with the
least hash, where the revisions have no order of their own and any of them could be taken. -/
def shaForPatchset? (change : ChangeInfo) (patchset : UInt32) : Option String :=
  (change.revisions.entries.find? fun entry => entry.2.number == patchset).map (·.1)

/-- The greatest number of a revision, none when there is no revision. -/
def latestPatchset? (change : ChangeInfo) : Option UInt32 :=
  (change.revisions.values.map (·.number)).foldl laterPatchset none

def currentCommitMessage? (change : ChangeInfo) : Option String := do
  let sha ← change.currentRevision
  let revision ← change.revisions.find? sha
  let commit ← revision.commit
  return commit.message

end ChangeInfo

end ReviewChecks
