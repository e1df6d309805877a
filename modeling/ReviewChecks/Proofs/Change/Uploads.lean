import Mathlib.Data.List.Induction
import Mathlib.Data.List.Nodup
import Mathlib.Data.List.Pairwise
import ReviewChecks.Proofs.Change.Revisions

/-! # Changes built up by uploads

A change is built up one uploaded commit after another. What counts of a commit is its last upload
(`ChangeInfo.find?_revisions_ofUploads`): an earlier one is replaced together with its number, so a number can leave the
change again, the greatest one too. The current revision, however, is the one uploaded last, whatever its number.
Provided that the last uploads of the commits have different numbers, the change can be asked for them by number
(`ChangeInfo.showsUploads_of_nodup`).

The subject of a revision is the first line of its message. `IsFirstLine` says what that is by the places where a line
can end, and `firstLine_eq_iff` that it is what `firstLine` finds.
-/

namespace ReviewChecks

/-- A line ends in front of a text: it starts with a line feed, or with a carriage return and a line feed. -/
def StartsWithLineEnd (text : List Char) : Prop :=
  ['\n'] <+: text ∨ ['\r', '\n'] <+: text

/-- A line is a text up to the first of its line ends. -/
structure IsFirstLine (line text : List Char) : Prop where
  /-- What is left of the text is empty or starts with a line end. -/
  ends : ∃ rest, text = line ++ rest ∧ (rest = [] ∨ StartsWithLineEnd rest)
  /-- No line ends before that. -/
  first : ∀ before after, text = before ++ after → StartsWithLineEnd after → line <+: before

theorem isFirstLine_firstLineChars (text : List Char) : IsFirstLine (firstLineChars text) text := by
  fun_induction firstLineChars text with
  | case1 => exact ⟨⟨[], rfl, .inl rfl⟩, fun _ _ _ _ => List.nil_prefix⟩
  | case2 rest => exact ⟨⟨'\n' :: rest, rfl, .inr (.inl ⟨rest, rfl⟩)⟩, fun _ _ _ _ => List.nil_prefix⟩
  | case3 rest => exact ⟨⟨'\r' :: '\n' :: rest, rfl, .inr (.inr ⟨rest, rfl⟩)⟩, fun _ _ _ _ => List.nil_prefix⟩
  | case4 c rest noLineFeed noReturn ih =>
    obtain ⟨left, split, cut⟩ := ih.ends
    refine ⟨⟨left, congrArg (c :: ·) split, cut⟩, fun before after parts starts => ?_⟩
    cases before with
    | nil =>
      -- no line end starts at the character itself
      obtain rfl : c :: rest = after := parts
      rcases starts with ⟨_, same⟩ | ⟨_, same⟩
      · exact (noLineFeed (List.cons.inj same).1.symm).elim
      · obtain ⟨rfl, lineFeed⟩ := List.cons.inj same
        exact (noReturn _ rfl lineFeed.symm).elim
    | cons head before =>
      obtain ⟨rfl, others⟩ := List.cons.inj parts
      exact List.cons_prefix_cons.mpr ⟨rfl, ih.first before after others starts⟩

/-- A text has one first line. -/
theorem IsFirstLine.unique {one other text : List Char} (left : IsFirstLine one text)
    (right : IsFirstLine other text) : one = other := by
  have within : ∀ {one other : List Char}, IsFirstLine one text → IsFirstLine other text → one <+: other := by
    intro one other left right
    obtain ⟨rest, split, cut⟩ := right.ends
    rcases cut with rfl | starts
    · obtain ⟨tail, whole, _⟩ := left.ends
      exact ⟨tail, by rw [← whole, split, List.append_nil]⟩
    · exact left.first other rest split starts
  exact (within left right).eq_of_length_le (within right left).length_le

theorem firstLine_eq_iff {line text : String} : firstLine text = line ↔ IsFirstLine line.toList text.toList := by
  have found := isFirstLine_firstLineChars text.toList
  rw [firstLine]
  constructor
  · rintro rfl
    rwa [String.toList_ofList]
  · intro is
    rw [found.unique is, String.ofList_toList]

/-- No line end starts in front of a carriage return that no line feed follows. -/
theorem not_startsWithLineEnd {gap after : List Char} (unended : '\n' ∉ gap) (lone : after.head? ≠ some '\n') :
    ¬ StartsWithLineEnd (gap ++ '\r' :: after) := by
  rintro (⟨rest, same⟩ | ⟨rest, same⟩)
  · cases gap with
    | nil => cases same
    | cons c gap =>
      obtain ⟨rfl, _⟩ := List.cons.inj same
      exact unended List.mem_cons_self
  · match gap with
    | [] =>
      obtain ⟨_, rfl⟩ := List.cons.inj same
      exact lone rfl
    | [_] => cases same
    | _ :: d :: gap =>
      obtain ⟨_, others⟩ := List.cons.inj same
      obtain ⟨rfl, _⟩ := List.cons.inj others
      exact unended (by simp)

/-- A carriage return that no line feed follows stays in the line, unless the line has ended before. -/
theorem IsFirstLine.keeps_return {line before after : List Char}
    (is : IsFirstLine line (before ++ '\r' :: after)) (unended : '\n' ∉ before) (lone : after.head? ≠ some '\n') :
    before ++ ['\r'] <+: line := by
  obtain ⟨rest, split, cut⟩ := is.ends
  have whole : before ++ ['\r'] <+: line ++ rest := ⟨after, by simp [← split]⟩
  rcases List.prefix_or_prefix_of_prefix whole (List.prefix_append line rest) with kept | short
  · exact kept
  · rcases List.prefix_concat_iff.mp short with same | ⟨gap, rfl⟩
    · exact same ▸ List.prefix_rfl
    · -- the line would have ended in front of the carriage return
      obtain rfl : gap ++ '\r' :: after = rest := by simpa using split
      rcases cut with none_left | starts
      · simp at none_left
      · have unended : '\n' ∉ gap := fun member => unended (List.mem_append_right _ member)
        exact (not_startsWithLineEnd unended lone starts).elim

/-- A commit that is uploaded as a patchset of a change. -/
structure Upload where
  sha : String
  number : UInt32
  message : String
deriving DecidableEq, Repr

namespace Upload

variable {uploads : List Upload} {upload : Upload} {sha : String}

/-- The last upload of a commit. -/
def last? (uploads : List Upload) (sha : String) : Option Upload :=
  uploads.reverse.find? (·.sha = sha)

/-- The last uploads of all commits: an upload remains if its commit is not uploaded again. -/
def remaining (uploads : List Upload) : List Upload :=
  uploads.pwFilter fun earlier later => earlier.sha ≠ later.sha

theorem last?_concat :
    last? (uploads ++ [upload]) sha = if upload.sha = sha then some upload else last? uploads sha := by
  rw [last?, List.reverse_concat, List.find?_cons]
  by_cases own : upload.sha = sha <;> simp [own, last?]

theorem last?_cons :
    last? (upload :: uploads) sha = (last? uploads sha).or (if upload.sha = sha then some upload else none) := by
  rw [last?, List.reverse_cons, List.find?_append, List.find?_singleton]
  simp [last?]

theorem last?_eq_none_iff : last? uploads sha = none ↔ ∀ upload ∈ uploads, upload.sha ≠ sha := by
  simp [last?]

theorem sha_of_last? (last : last? uploads sha = some upload) : upload.sha = sha := by
  simpa using List.find?_some last

/-- The uploads that remain are the last ones of their commits. -/
theorem mem_remaining_iff : upload ∈ remaining uploads ↔ last? uploads upload.sha = some upload := by
  -- whether an upload remains depends on those after it, so the induction is from the front
  induction uploads with
  | nil => simp [remaining, last?]
  | cons head later ih =>
    have only : (∀ other ∈ remaining later, head.sha ≠ other.sha) ↔ last? later head.sha = none := by
      rw [last?_eq_none_iff, remaining, List.forall_mem_pwFilter]
      · simp only [ne_comm]
      · exact fun apart => (apart.ne_or_ne _).imp_right Ne.symm
    rw [last?_cons, remaining]
    cases again : last? later head.sha with
    | none =>
      rw [List.pwFilter_cons_of_pos (only.mpr again), List.mem_cons, ← remaining, ih]
      by_cases own : head.sha = upload.sha
      · rw [← own, again]
        simp [eq_comm]
      · have other : upload ≠ head := fun same => own (congrArg sha same).symm
        simp [own, other]
    | some renewed =>
      rw [List.pwFilter_cons_of_neg fun all => by simp [only.mp all] at again, ← remaining, ih]
      by_cases own : head.sha = upload.sha
      · rw [← own, again, Option.some_or]
      · simp [own]

theorem mem_remaining_of_last? (last : last? uploads sha = some upload) : upload ∈ remaining uploads := by
  rw [mem_remaining_iff, sha_of_last? last]
  exact last

/-- The revision that an upload makes. -/
def revision (upload : Upload) : RevisionInfo where
  number := upload.number
  commit := some (.ofMessage upload.message)

end Upload

/-- A revision has the number and the message of an upload, and the first line of the message as its subject. -/
def RevisionInfo.Stores (revision : RevisionInfo) (upload : Upload) : Prop :=
  revision.number = upload.number ∧ ∃ commit, revision.commit = some commit ∧ commit.message = upload.message ∧
    IsFirstLine commit.subject.toList upload.message.toList

theorem RevisionInfo.stores_iff {revision : RevisionInfo} {upload : Upload} :
    revision.Stores upload ↔ revision = upload.revision := by
  constructor
  · rcases revision with ⟨number, commit⟩
    rintro ⟨rfl, ⟨subject, message⟩, rfl, rfl, first⟩
    obtain rfl := firstLine_eq_iff.mpr first
    rfl
  · rintro rfl
    exact ⟨rfl, _, rfl, rfl, firstLine_eq_iff.mp rfl⟩

namespace ChangeInfo

/-- The change that some uploads, one after another, make of one without revisions. -/
def ofUploads (number : UInt64) (project : String) (uploads : List Upload) : ChangeInfo :=
  uploads.foldl (fun change upload => change.addRevision upload.sha upload.number upload.message)
    (.ofNumber number project)

variable (number : UInt64) (project : String) (uploads : List Upload)

theorem ofUploads_concat (upload : Upload) :
    ofUploads number project (uploads ++ [upload]) =
      (ofUploads number project uploads).addRevision upload.sha upload.number upload.message :=
  List.foldl_concat ..

/-- The revision of a commit is that of its last upload. -/
theorem find?_revisions_ofUploads (sha : String) :
    (ofUploads number project uploads).revisions.find? sha = (Upload.last? uploads sha).map Upload.revision := by
  induction uploads using List.reverseRecOn with
  | nil => rfl
  | append_singleton uploads upload ih =>
    rw [ofUploads_concat, addRevision, Table.find?_insert, ih, Upload.last?_concat]
    by_cases own : sha = upload.sha
    · simp [own, Upload.revision]
    · simp [own, Ne.symm own]

theorem find?_revisions_ofUploads_eq_some_iff {sha : String} {revision : RevisionInfo} :
    (ofUploads number project uploads).revisions.find? sha = some revision ↔
      ∃ upload, Upload.last? uploads sha = some upload ∧ revision.Stores upload := by
  rw [find?_revisions_ofUploads, Option.map_eq_some_iff]
  simp only [RevisionInfo.stores_iff, eq_comm]

/-- The current revision is that of the upload made last. -/
theorem currentCommitMessage?_ofUploads :
    (ofUploads number project uploads).currentCommitMessage? = uploads.getLast?.map (·.message) := by
  rcases List.eq_nil_or_concat uploads with rfl | ⟨earlier, last, rfl⟩
  · rfl
  · rw [List.concat_eq_append, ofUploads_concat, List.getLast?_concat]
    simp [currentCommitMessage?, addRevision, Table.find?_insert, CommitInfo.ofMessage]

/-- The revisions of a change are those of the uploads that remain. -/
theorem hasRevision_ofUploads {sha : String} {patchset : UInt32} :
    (ofUploads number project uploads).HasRevision sha patchset ↔
      ∃ upload, Upload.last? uploads sha = some upload ∧ upload.number = patchset := by
  simp only [HasRevision, find?_revisions_ofUploads, Option.map_eq_some_iff, exists_exists_and_eq_and]
  rfl

theorem exists_hasRevision_ofUploads {patchset : UInt32} :
    (∃ sha, (ofUploads number project uploads).HasRevision sha patchset) ↔
      ∃ upload ∈ Upload.remaining uploads, upload.number = patchset := by
  simp only [hasRevision_ofUploads]
  constructor
  · rintro ⟨sha, upload, last, carried⟩
    exact ⟨upload, Upload.mem_remaining_of_last? last, carried⟩
  · rintro ⟨upload, remains, carried⟩
    exact ⟨upload.sha, upload, Upload.mem_remaining_iff.mp remains, carried⟩

theorem shaForPatchset?_ofUploads_eq_none_iff {patchset : UInt32} :
    (ofUploads number project uploads).shaForPatchset? patchset = none ↔
      ∀ upload ∈ Upload.remaining uploads, upload.number ≠ patchset := by
  rw [shaForPatchset?_eq_none_iff, ← not_exists, exists_hasRevision_ofUploads]
  simp only [not_exists, not_and]

/-- The latest patchset is the greatest number of an upload that remains, not the greatest one ever uploaded. -/
theorem latestPatchset?_ofUploads_eq_some_iff {patchset : UInt32} :
    (ofUploads number project uploads).latestPatchset? = some patchset ↔
      (∃ upload ∈ Upload.remaining uploads, upload.number = patchset) ∧
        ∀ upload ∈ Upload.remaining uploads, upload.number ≤ patchset := by
  rw [latestPatchset?_eq_some_iff, ← exists_hasRevision_ofUploads number project]
  constructor
  · intro latest
    refine ⟨latest.present, fun upload remains => ?_⟩
    obtain ⟨sha, held⟩ := (exists_hasRevision_ofUploads number project uploads).mpr ⟨upload, remains, rfl⟩
    exact latest.greatest sha upload.number held
  · rintro ⟨present, bound⟩
    refine ⟨present, fun sha other held => ?_⟩
    obtain ⟨upload, remains, rfl⟩ := (exists_hasRevision_ofUploads number project uploads).mp ⟨sha, held⟩
    exact bound upload remains

theorem latestPatchset?_ofUploads_eq_none_iff :
    (ofUploads number project uploads).latestPatchset? = none ↔ uploads = [] := by
  rw [latestPatchset?_eq_none_iff]
  constructor
  · intro absent
    refine List.eq_nil_iff_forall_not_mem.mpr fun upload member => ?_
    cases last : Upload.last? uploads upload.sha with
    | none => exact Upload.last?_eq_none_iff.mp last upload member rfl
    | some other => exact absent upload.sha _ ((hasRevision_ofUploads ..).mpr ⟨other, last, rfl⟩)
  · rintro rfl sha patchset ⟨revision, found, _⟩
    cases found

/-- What a change shows of the uploads that it came about by. -/
structure ShowsUploads (change : ChangeInfo) (uploads : List Upload) : Prop where
  /-- A number leads to the commit whose last upload carried it. -/
  sha : ∀ patchset sha, change.shaForPatchset? patchset = some sha ↔
    ∃ upload, Upload.last? uploads sha = some upload ∧ upload.number = patchset
  /-- A number that no remaining upload carries leads nowhere. -/
  absent : ∀ patchset, change.shaForPatchset? patchset = none ↔
    ∀ upload ∈ Upload.remaining uploads, upload.number ≠ patchset
  /-- The latest patchset is the greatest number that remains. -/
  latest : ∀ patchset, change.latestPatchset? = some patchset ↔
    (∃ upload ∈ Upload.remaining uploads, upload.number = patchset) ∧
      ∀ upload ∈ Upload.remaining uploads, upload.number ≤ patchset
  /-- Without an upload there is no latest patchset. -/
  bare : change.latestPatchset? = none ↔ uploads = []
  /-- The current commit is the one uploaded last. -/
  message : change.currentCommitMessage? = uploads.getLast?.map (·.message)
  /-- The revision of a commit stores its last upload, of whose message the first line is the subject. -/
  stored : ∀ sha revision, change.revisions.find? sha = some revision ↔
    ∃ upload, Upload.last? uploads sha = some upload ∧ revision.Stores upload
  /-- A lone carriage return does not end the subject. -/
  lone : ∀ sha revision commit, change.revisions.find? sha = some revision → revision.commit = some commit →
    ∀ before after, commit.message.toList = before ++ '\r' :: after → '\n' ∉ before → after.head? ≠ some '\n' →
      before ++ ['\r'] <+: commit.subject.toList

/-- If the last uploads of the commits have different numbers, then the change that came about by the uploads shows
these last uploads, and as its current one the upload made last. -/
theorem showsUploads_of_nodup {uploads : List Upload}
    (distinct : ((Upload.remaining uploads).map (·.number)).Nodup) :
    (ofUploads number project uploads).ShowsUploads uploads where
  sha patchset sha := by
    rw [← hasRevision_ofUploads]
    refine shaForPatchset?_eq_some_iff fun other held found => ?_
    obtain ⟨one, lastOne, carriesOne⟩ := (hasRevision_ofUploads ..).mp held
    obtain ⟨two, lastTwo, carriesTwo⟩ := (hasRevision_ofUploads ..).mp found
    have same : one = two := List.inj_on_of_nodup_map distinct (Upload.mem_remaining_of_last? lastOne)
      (Upload.mem_remaining_of_last? lastTwo) (carriesOne.trans carriesTwo.symm)
    rw [← Upload.sha_of_last? lastOne, same, Upload.sha_of_last? lastTwo]
  absent _ := shaForPatchset?_ofUploads_eq_none_iff number project uploads
  latest _ := latestPatchset?_ofUploads_eq_some_iff number project uploads
  bare := latestPatchset?_ofUploads_eq_none_iff number project uploads
  message := currentCommitMessage?_ofUploads number project uploads
  stored sha revision := find?_revisions_ofUploads_eq_some_iff number project uploads
  lone sha revision commit found committed before after parts unended lone := by
    obtain ⟨upload, _, _, _, stored, message, first⟩ :=
      (find?_revisions_ofUploads_eq_some_iff number project uploads).mp found
    obtain rfl := Option.some.inj (committed.symm.trans stored)
    rw [← message, parts] at first
    exact first.keeps_return unended lone

/-- Three commits, of which the second is uploaded again under a smaller number. -/
def reuploaded : List Upload :=
  [{ sha := "first", number := 1, message := "Initial upload\n\nBody" },
    { sha := "second", number := 9, message := "Draft" },
    { sha := "third", number := 3, message := "Fix\rlint\r\nBody" },
    { sha := "second", number := 2, message := "Rebase\r" }]

/-- The greatest number ever uploaded leads nowhere any more, and the current commit is not the one of the latest
patchset. -/
theorem showsUploads_reuploaded :
    ((Upload.remaining reuploaded).map (·.number)).Nodup ∧
      let change := ofUploads 42 "tools" reuploaded
      change.shaForPatchset? 2 = some "second" ∧ change.shaForPatchset? 9 = none ∧
        change.latestPatchset? = some 3 ∧ change.currentCommitMessage? = some "Rebase\r" ∧
        change.revisions.find? "third" =
          some { number := 3, commit := some { subject := "Fix\rlint", message := "Fix\rlint\r\nBody" } } := by
  have distinct : ((Upload.remaining reuploaded).map (·.number)).Nodup := by decide
  have shown := showsUploads_of_nodup 42 "tools" distinct
  have again : Upload.last? reuploaded "second" = some { sha := "second", number := 2, message := "Rebase\r" } := by
    decide
  have once : Upload.last? reuploaded "third" =
      some { sha := "third", number := 3, message := "Fix\rlint\r\nBody" } := by
    decide
  have subject : IsFirstLine "Fix\rlint".toList "Fix\rlint\r\nBody".toList := firstLine_eq_iff.mp (by decide)
  exact ⟨distinct, (shown.sha 2 "second").mpr ⟨_, again, rfl⟩, (shown.absent 9).mpr (by decide),
    (shown.latest 3).mpr (by decide), shown.message,
    (shown.stored "third" _).mpr ⟨_, once, rfl, _, rfl, rfl, subject⟩⟩

end ChangeInfo

end ReviewChecks
