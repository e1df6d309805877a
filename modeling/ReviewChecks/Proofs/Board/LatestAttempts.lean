import Mathlib.Data.Prod.Basic
import ReviewChecks.Board.Reading
import ReviewChecks.Proofs.Board.Derivation

/-! # How many runs of a check are its latest attempt

Whether a held run counts as the latest attempt of its check depends on attempt numbers alone: it does if it is the only
run of the check, or if it carries the greatest number (`CheckRun.DerivedAmong.latest`). Runs that share the greatest
number are therefore all latest, and apart from that there is at most one (`Store.untied_iff_latest`).
-/

namespace ReviewChecks

/-- No two of some attempt numbers are both the greatest. -/
def Untied (attempts : List (Option UInt32)) : Prop :=
  ∀ number, IsGreatestAttempt number attempts → attempts.count (some number) ≤ 1

theorem IsGreatestAttempt.unique {attempts : List (Option UInt32)} {left right : UInt32}
    (greatest : IsGreatestAttempt left attempts) (other : IsGreatestAttempt right attempts) : left = right :=
  UInt32.le_antisymm (other.2 left greatest.1) (greatest.2 right other.1)

namespace Entry

/-- The runs of a check that an entry holds. -/
def ofCheck (entry : Entry) (checkName : String) : List CheckRun :=
  entry.runs.filter (·.info.checkName = checkName)

/-- The attempt numbers of the runs of a check that an entry holds. -/
def attemptsOf (entry : Entry) (checkName : String) : List (Option UInt32) :=
  (entry.ofCheck checkName).map (·.info.attempt)

/-- The runs of a check that an entry shows as its latest attempt. -/
def latestOf (entry : Entry) (checkName : String) : List CheckRun :=
  (entry.ofCheck checkName).filter (·.isLatestAttempt)

theorem attemptsOf_eq (entry : Entry) (checkName : String) :
    entry.attemptsOf checkName = ReviewChecks.attemptsOf (entry.runs.map (·.info)) checkName := by
  simp only [attemptsOf, ofCheck, ReviewChecks.attemptsOf, List.filter_map, List.map_map]
  rfl

/-- The flag that shows a run as the latest attempt is right on every run of an entry. -/
def FlagsLatest (entry : Entry) : Prop :=
  ∀ run ∈ entry.runs, run.isLatestAttempt = true ↔ (entry.ofCheck run.info.checkName).length = 1 ∨
    ∃ number, run.info.attempt = some number ∧ IsGreatestAttempt number (entry.attemptsOf run.info.checkName)

namespace FlagsLatest

variable {entry : Entry} {checkName : String}

private theorem iff_of_mem (flags : entry.FlagsLatest) {run : CheckRun} (member : run ∈ entry.ofCheck checkName) :
    run.isLatestAttempt = true ↔ (entry.ofCheck checkName).length = 1 ∨
      ∃ number, run.info.attempt = some number ∧ IsGreatestAttempt number (entry.attemptsOf checkName) := by
  obtain ⟨held, named⟩ := List.mem_filter.mp member
  rw [← of_decide_eq_true named]
  exact flags run held

/-- The only run of a check is its latest attempt. -/
theorem latestOf_of_single (flags : entry.FlagsLatest) (single : (entry.ofCheck checkName).length = 1) :
    entry.latestOf checkName = entry.ofCheck checkName :=
  List.filter_eq_self.mpr fun _ member => (flags.iff_of_mem member).mpr (.inl single)

/-- Of several runs those with the greatest number are latest. -/
theorem length_latestOf_of_greatest (flags : entry.FlagsLatest) (several : (entry.ofCheck checkName).length ≠ 1)
    {number : UInt32} (greatest : IsGreatestAttempt number (entry.attemptsOf checkName)) :
    (entry.latestOf checkName).length = (entry.attemptsOf checkName).count (some number) := by
  rw [attemptsOf, List.count, List.countP_map, List.countP_eq_length_filter, latestOf]
  refine congrArg List.length (List.filter_congr fun run member => Bool.eq_iff_iff.mpr ?_)
  rw [flags.iff_of_mem member, Function.comp_apply, beq_iff_eq]
  constructor
  · rintro (single | ⟨other, carried, top⟩)
    · exact (several single).elim
    · rw [carried, top.unique greatest]
  · intro carried
    exact .inr ⟨number, carried, greatest⟩

/-- Of several runs without a number none is latest. -/
theorem latestOf_eq_nil (flags : entry.FlagsLatest) (several : (entry.ofCheck checkName).length ≠ 1)
    (unnumbered : ¬ ∃ number, IsGreatestAttempt number (entry.attemptsOf checkName)) :
    entry.latestOf checkName = [] := by
  refine List.filter_eq_nil_iff.mpr fun run member latest => ?_
  rcases (flags.iff_of_mem member).mp latest with single | ⟨number, _, greatest⟩
  · exact several single
  · exact unnumbered ⟨number, greatest⟩

/-- At most one run of a check is its latest attempt exactly if no two share the greatest number. -/
theorem length_latestOf_le_one_iff (flags : entry.FlagsLatest) :
    (entry.latestOf checkName).length ≤ 1 ↔ Untied (entry.attemptsOf checkName) := by
  by_cases single : (entry.ofCheck checkName).length = 1
  · have one : (entry.attemptsOf checkName).length = 1 := by rw [attemptsOf, List.length_map, single]
    rw [flags.latestOf_of_single single, single]
    exact iff_of_true (Nat.le_refl 1) fun number _ => Nat.le_trans List.count_le_length (Nat.le_of_eq one)
  · by_cases numbered : ∃ number, IsGreatestAttempt number (entry.attemptsOf checkName)
    · obtain ⟨number, greatest⟩ := numbered
      rw [flags.length_latestOf_of_greatest single greatest]
      constructor
      · intro bound other top
        rwa [top.unique greatest]
      · intro untied
        exact untied number greatest
    · rw [flags.latestOf_eq_nil single numbered]
      exact iff_of_true (Nat.zero_le 1) fun number greatest => (numbered ⟨number, greatest⟩).elim

/-- Some run of a check is its latest attempt exactly if there is only one run or one with a number. -/
theorem latestOf_ne_nil_iff (flags : entry.FlagsLatest) :
    entry.latestOf checkName ≠ [] ↔
      (entry.ofCheck checkName).length = 1 ∨ ∃ run ∈ entry.ofCheck checkName, run.info.attempt.isSome := by
  have some_number : (∃ number, IsGreatestAttempt number (entry.attemptsOf checkName)) ↔
      ∃ run ∈ entry.ofCheck checkName, run.info.attempt.isSome := by
    rw [exists_isGreatestAttempt_iff, attemptsOf]
    simp only [List.mem_map, exists_exists_and_eq_and]
  by_cases single : (entry.ofCheck checkName).length = 1
  · rw [flags.latestOf_of_single single]
    exact iff_of_true (fun empty => by simp [empty] at single) (.inl single)
  · rw [← some_number]
    by_cases numbered : ∃ number, IsGreatestAttempt number (entry.attemptsOf checkName)
    · refine iff_of_true (fun empty => ?_) (.inr numbered)
      obtain ⟨number, greatest⟩ := numbered
      have none_latest := flags.length_latestOf_of_greatest single greatest
      rw [empty] at none_latest
      exact List.count_eq_zero.mp none_latest.symm greatest.1
    · exact iff_of_false (fun some_latest => some_latest (flags.latestOf_eq_nil single numbered))
        fun either => either.elim single numbered

end FlagsLatest

/-- The latest attempts of an entry are of different checks exactly if each check has at most one. -/
theorem nodup_latest_iff (entry : Entry) :
    ((entry.runs.filter (·.isLatestAttempt)).map (·.info.checkName)).Nodup ↔
      ∀ checkName, (entry.latestOf checkName).length ≤ 1 := by
  rw [List.nodup_iff_count_le_one]
  refine forall_congr' fun checkName => ?_
  rw [List.count, List.countP_map, List.countP_eq_length_filter, latestOf, ofCheck, List.filter_comm]
  rfl

end Entry

namespace Entries

/-- The runs that are the latest attempt of their check, each with its provider. -/
def latestByProvider (entries : Entries) : List (String × CheckRun) :=
  entries.flatMap fun entry => (entry.runs.filter (·.isLatestAttempt)).map (entry.plugin, ·)

theorem map_snd_latestByProvider (entries : Entries) :
    entries.latestByProvider.map Prod.snd = entries.allRunsLatestAttempt := by
  simp only [latestByProvider, allRunsLatestAttempt, allRuns, List.map_flatMap, List.map_map, List.filter_flatMap]
  refine List.flatMap_congr fun entry _ => ?_
  exact List.map_id _

/-- No provider shows two latest attempts of one check exactly if no entry does. -/
theorem nodup_latestByProvider_iff {entries : Entries} (nodup : entries.names.Nodup) :
    (entries.latestByProvider.map fun owned => (owned.1, owned.2.info.checkName)).Nodup ↔
      ∀ entry ∈ entries, ∀ checkName, (entry.latestOf checkName).length ≤ 1 := by
  have apart : entries.Pairwise fun left right => left.plugin ≠ right.plugin := List.pairwise_map.mp nodup
  rw [latestByProvider, List.map_flatMap, List.nodup_flatMap]
  have own : ∀ entry : Entry, (((entry.runs.filter (·.isLatestAttempt)).map (entry.plugin, ·)).map
      fun owned => (owned.1, owned.2.info.checkName)).Nodup ↔
        ∀ checkName, (entry.latestOf checkName).length ≤ 1 := by
    intro entry
    refine (Iff.trans ?_ (List.nodup_map_iff (Prod.mk_right_injective entry.plugin))).trans entry.nodup_latest_iff
    rw [List.map_map, List.map_map]
    rfl
  refine ⟨fun both entry member => (own entry).mp (both.1 entry member),
    fun each => ⟨fun entry member => (own entry).mpr (each entry member), apart.imp fun other => ?_⟩⟩
  change List.Disjoint _ _
  rw [List.disjoint_left]
  intro pair left right
  simp only [List.map_map, List.mem_map, Function.comp_apply] at left right
  obtain ⟨_, _, rfl⟩ := left
  obtain ⟨_, _, same⟩ := right
  exact other (congrArg Prod.fst same).symm

end Entries

namespace Store

theorem flagsLatest {mutations : List Mutation} {context : PatchsetContext} {entry : Entry}
    (member : entry ∈ entriesAfter mutations context) : entry.FlagsLatest := by
  intro run held
  have derived := derivedAmong_lastReport member held
  rw [← map_info_runs member] at derived
  have count : (entry.ofCheck run.info.checkName).length = (entry.attemptsOf run.info.checkName).length := by
    rw [Entry.attemptsOf, List.length_map]
  rw [count, Entry.attemptsOf_eq]
  exact derived.latest

/-- At most one run of a check is flagged as its latest attempt exactly if no two of its runs share the greatest
number, and then one is exactly if there is a number or only one run. So the latest attempts that are shown are of
different checks for each provider exactly if no check of any entry is tied. -/
theorem untied_iff_latest (mutations : List Mutation) (context : PatchsetContext) :
    (∀ entry ∈ entriesAfter mutations context, ∀ checkName,
      ((entry.latestOf checkName).length ≤ 1 ↔ Untied (entry.attemptsOf checkName)) ∧
      (Untied (entry.attemptsOf checkName) → ((entry.latestOf checkName).length = 1 ↔
        (entry.ofCheck checkName).length = 1 ∨ ∃ run ∈ entry.ofCheck checkName, run.info.attempt.isSome))) ∧
    (entriesAfter mutations context).latestByProvider.map Prod.snd =
      (entriesAfter mutations context).allRunsLatestAttempt ∧
    (((entriesAfter mutations context).latestByProvider.map fun owned => (owned.1, owned.2.info.checkName)).Nodup ↔
      ∀ entry ∈ entriesAfter mutations context, ∀ checkName, Untied (entry.attemptsOf checkName)) := by
  refine ⟨fun entry member checkName => ?_, Entries.map_snd_latestByProvider _, ?_⟩
  · have flags := flagsLatest member
    refine ⟨flags.length_latestOf_le_one_iff, fun untied => ?_⟩
    have bound := flags.length_latestOf_le_one_iff.mpr untied
    rw [← flags.latestOf_ne_nil_iff, ← List.length_pos_iff]
    omega
  · rw [Entries.nodup_latestByProvider_iff (nodup_names mutations context)]
    refine forall₂_congr fun entry member => forall_congr' fun checkName => ?_
    exact (flagsLatest member).length_latestOf_le_one_iff

/-- Two attempts of a build with different numbers are not tied, so one of them is shown as the latest. -/
theorem untied_iff_latest_pushed :
    ∃ entry ∈ entriesAfter pushedMutations .latest, (entry.ofCheck "build").length = 2 ∧
      Untied (entry.attemptsOf "build") ∧ (entry.latestOf "build").length = 1 := by
  have computed : ((entriesAfter pushedMutations .latest)[0]?.any fun entry => decide (
      (entry.ofCheck "build").length = 2 ∧ (entry.latestOf "build").length ≤ 1 ∧
      ∃ run ∈ entry.ofCheck "build", run.info.attempt.isSome)) = true := by
    decide
  obtain ⟨entry, first, facts⟩ := (Option.any_eq_true ..).mp computed
  obtain ⟨two, bound, numbered⟩ := of_decide_eq_true facts
  have member := List.mem_of_getElem? first
  obtain ⟨unique, exact_one⟩ := (untied_iff_latest pushedMutations .latest).1 entry member "build"
  have untied := unique.mp bound
  exact ⟨entry, member, two, untied, (exact_one untied).mpr (.inr numbered)⟩

/-- A provider reports its second attempt of a build twice. -/
def tiedMutations : List Mutation :=
  let build : RunInfo := { change := 42, patchset := 3, attempt := some 1, checkName := "build" }
  [.register "ci" .latest,
    .load "ci" .latest
      [{ info := build }, { info := { build with attempt := some 2 } }, { info := { build with attempt := some 2 } }]
      [] []]

/-- Two runs that share the greatest number are both shown as the latest attempt of their check. -/
theorem not_unique_tied :
    ¬ ∀ entry ∈ entriesAfter tiedMutations .latest, ∀ checkName, (entry.latestOf checkName).length ≤ 1 := by
  intro unique
  have computed : ((entriesAfter tiedMutations .latest)[0]?.any fun entry => decide (
      (entry.latestOf "build").length = 2)) = true := by
    decide
  obtain ⟨entry, first, facts⟩ := (Option.any_eq_true ..).mp computed
  have two : (entry.latestOf "build").length = 2 := of_decide_eq_true facts
  have bound := unique entry (List.mem_of_getElem? first) "build"
  omega

end Store

end ReviewChecks
