import ReviewChecks.Change
import ReviewChecks.Proofs.Table

/-! # The revisions of a change

A change keeps its revisions by commit hash and is asked for them by number. What it answers is said by
`ChangeInfo.HasRevision`: a number is found exactly if some revision has it (`shaForPatchset?_eq_none_iff`), and where
the revisions have different numbers there is one answer only (`shaForPatchset?_eq_some_iff`). The latest patchset is
the greatest of the numbers (`latestPatchset?_eq_some_iff`).
-/

namespace ReviewChecks.ChangeInfo

/-- A change has a revision of a number under a commit hash. -/
def HasRevision (change : ChangeInfo) (sha : String) (number : UInt32) : Prop :=
  ∃ revision, change.revisions.find? sha = some revision ∧ revision.number = number

/-- A number is that of a revision, and no revision has a greater one. -/
structure IsLatestPatchset (change : ChangeInfo) (number : UInt32) : Prop where
  present : ∃ sha, change.HasRevision sha number
  greatest : ∀ sha other, change.HasRevision sha other → other ≤ number

variable {change : ChangeInfo}

theorem hasRevision_iff {sha : String} {number : UInt32} :
    change.HasRevision sha number ↔ ∃ entry ∈ change.revisions.entries, entry.1 = sha ∧ entry.2.number = number := by
  simp only [HasRevision, Table.find?_eq_some_iff]
  constructor
  · rintro ⟨revision, member, same⟩
    exact ⟨_, member, rfl, same⟩
  · rintro ⟨⟨_, revision⟩, member, rfl, same⟩
    exact ⟨revision, member, same⟩

theorem hasRevision_of_sha {patchset : UInt32} {sha : String} (found : change.shaForPatchset? patchset = some sha) :
    change.HasRevision sha patchset := by
  obtain ⟨entry, located, rfl⟩ := Option.map_eq_some_iff.mp found
  exact hasRevision_iff.mpr
    ⟨entry, List.mem_of_find?_eq_some located, rfl, by simpa using List.find?_some located⟩

theorem shaForPatchset?_eq_none_iff {patchset : UInt32} :
    change.shaForPatchset? patchset = none ↔ ∀ sha, ¬ change.HasRevision sha patchset := by
  simp only [shaForPatchset?, Option.map_eq_none_iff, List.find?_eq_none, beq_iff_eq, hasRevision_iff]
  constructor
  · rintro absent sha ⟨entry, member, _, same⟩
    exact absent entry member same
  · exact fun absent entry member same => absent entry.1 ⟨entry, member, rfl, same⟩

/-- Where no two revisions share a number, the one of a number is found. -/
theorem shaForPatchset?_eq_some_iff {patchset : UInt32} {sha : String}
    (distinct : ∀ other, change.HasRevision other patchset → change.HasRevision sha patchset → other = sha) :
    change.shaForPatchset? patchset = some sha ↔ change.HasRevision sha patchset := by
  refine ⟨hasRevision_of_sha, fun held => ?_⟩
  cases found : change.shaForPatchset? patchset with
  | none => exact (shaForPatchset?_eq_none_iff.mp found sha held).elim
  | some other => rw [distinct other (hasRevision_of_sha found) held]

private theorem foldl_laterPatchset (first : UInt32) (rest : List UInt32) :
    ∃ greatest ∈ first :: rest, rest.foldl laterPatchset (some first) = some greatest ∧
      ∀ other ∈ first :: rest, other ≤ greatest := by
  induction rest generalizing first with
  | nil => exact ⟨first, List.mem_cons_self, rfl, by simp⟩
  | cons second rest ih =>
    obtain ⟨greatest, member, same, bound⟩ := ih (if first < second then second else first)
    have top := bound _ List.mem_cons_self
    refine ⟨greatest, ?_, same, fun other held => ?_⟩
    · rcases List.mem_cons.mp member with rfl | member
      · split <;> simp
      · simp [member]
    · rcases List.mem_cons.mp held with rfl | held
      · refine UInt32.le_trans ?_ top
        split
        next below => exact UInt32.le_of_lt below
        next => exact UInt32.le_refl _
      · rcases List.mem_cons.mp held with rfl | held
        · refine UInt32.le_trans ?_ top
          split
          next => exact UInt32.le_refl _
          next above => exact UInt32.not_lt.mp above
        · exact bound other (List.mem_cons_of_mem _ held)

private theorem mem_numbers_iff {number : UInt32} :
    number ∈ change.revisions.values.map (·.number) ↔ ∃ sha, change.HasRevision sha number := by
  simp only [Table.values, List.map_map, List.mem_map, Function.comp_apply, hasRevision_iff]
  constructor
  · rintro ⟨entry, member, same⟩
    exact ⟨entry.1, entry, member, rfl, same⟩
  · rintro ⟨_, entry, member, _, same⟩
    exact ⟨entry, member, same⟩

/-- A change without a revision has no latest patchset, any other change has one. -/
private theorem latestPatchset?_cases (change : ChangeInfo) :
    (change.latestPatchset? = none ∧ ∀ sha number, ¬ change.HasRevision sha number) ∨
      ∃ latest, change.latestPatchset? = some latest ∧ change.IsLatestPatchset latest := by
  cases numbers : change.revisions.values.map (·.number) with
  | nil =>
    refine .inl ⟨by rw [latestPatchset?, numbers]; rfl, fun sha number held => ?_⟩
    have member := mem_numbers_iff.mpr ⟨sha, held⟩
    rw [numbers] at member
    cases member
  | cons first rest =>
    obtain ⟨greatest, member, same, bound⟩ := foldl_laterPatchset first rest
    rw [← numbers] at member bound
    refine .inr ⟨greatest, by rw [latestPatchset?, numbers]; exact same, mem_numbers_iff.mp member, ?_⟩
    exact fun sha other held => bound other (mem_numbers_iff.mpr ⟨sha, held⟩)

theorem IsLatestPatchset.unique {one other : UInt32} (latest : change.IsLatestPatchset one)
    (alike : change.IsLatestPatchset other) : one = other := by
  obtain ⟨sha, held⟩ := latest.present
  obtain ⟨otherSha, otherHeld⟩ := alike.present
  exact UInt32.le_antisymm (alike.greatest sha one held) (latest.greatest otherSha other otherHeld)

theorem latestPatchset?_eq_some_iff {number : UInt32} :
    change.latestPatchset? = some number ↔ change.IsLatestPatchset number := by
  rcases change.latestPatchset?_cases with ⟨bare, absent⟩ | ⟨greatest, same, isLatest⟩
  · refine iff_of_false (by simp [bare]) fun latest => ?_
    obtain ⟨sha, held⟩ := latest.present
    exact absent sha number held
  · rw [same, Option.some.injEq]
    constructor
    · rintro rfl
      exact isLatest
    · exact isLatest.unique

theorem latestPatchset?_eq_none_iff :
    change.latestPatchset? = none ↔ ∀ sha number, ¬ change.HasRevision sha number := by
  rcases change.latestPatchset?_cases with ⟨bare, absent⟩ | ⟨greatest, same, isLatest⟩
  · exact iff_of_true bare absent
  · refine iff_of_false (by simp [same]) fun absent => ?_
    obtain ⟨sha, held⟩ := isLatest.present
    exact absent sha greatest held

/-- A change whose latest patchset is not known has no patchset at all. -/
theorem shaForPatchset?_of_latestPatchset?_eq_none (bare : change.latestPatchset? = none) (patchset : UInt32) :
    change.shaForPatchset? patchset = none :=
  shaForPatchset?_eq_none_iff.mpr fun sha => latestPatchset?_eq_none_iff.mp bare sha patchset

end ReviewChecks.ChangeInfo
