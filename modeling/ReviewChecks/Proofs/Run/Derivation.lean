import ReviewChecks.Proofs.Run.Attempts
import ReviewChecks.Run.Derived

/-! # What is derived of a run

The ids, the flags and the attempts of a held run are derived from the descriptions of the runs that are held with it
(`CheckRun.DerivedAmong`). Runs that are derived together have the derived data right
(`CheckRun.derivedAmong_of_mem_deriveAll`), and it only depends on the outline of a run, which leaves out what its
results say (`CheckRun.DerivedAmong.of_outline`). The icons are not derived from descriptions: the attempts of a run
are those of the runs that were derived with it (`CheckRun.arranges_of_mem_deriveAll`).
-/

namespace ReviewChecks

/-- The attempt numbers of the runs of a check, in the order of the runs. -/
def attemptsOf (infos : List RunInfo) (checkName : String) : List (Option UInt32) :=
  (infos.filter (·.checkName = checkName)).map (·.attempt)

/-- The attempts that the runs of a check are, in the order of the runs. -/
def detailsOf (runs : List Run) (checkName : String) : List AttemptDetail :=
  (runs.filter (·.info.checkName = checkName)).map Run.attemptDetail

theorem map_attempt_detailsOf (runs : List Run) (checkName : String) :
    (detailsOf runs checkName).map (·.attempt) = attemptsOf (runs.map (·.info)) checkName := by
  simp only [detailsOf, attemptsOf, List.filter_map, List.map_map]
  rfl

namespace CheckRun

/-- What is derived of a run is right among the descriptions of the runs that are held together, its own included. -/
structure DerivedAmong (infos : List RunInfo) (run : CheckRun) : Prop where
  id : run.id = run.info.runId
  /-- The id of a result is that of the run and the place of the result. -/
  result : ∀ index result, run.results[index]? = some result → result.id = run.id ++ "-" ++ Text.ofNat index
  single : run.isSingleAttempt = true ↔ (attemptsOf infos run.info.checkName).length = 1
  latest : run.isLatestAttempt = true ↔ (attemptsOf infos run.info.checkName).length = 1 ∨
    ∃ number, run.info.attempt = some number ∧ IsGreatestAttempt number (attemptsOf infos run.info.checkName)
  attempts : run.attemptDetails.map (·.attempt) = (attemptsOf infos run.info.checkName).mergeSort attemptLe

theorem ofRun_aggregate {runs : List Run} {run : Run} (member : run ∈ runs) :
    ofRun (aggregate runs) run =
      let attempts := AttemptInfo.ofRuns (runs.filter (·.info.checkName = run.info.checkName))
      { info := run.info
        id := run.info.runId
        isLatestAttempt := attempts.isLatest run.info.attempt
        isSingleAttempt := attempts.isSingleAttempt
        attemptDetails := attempts.attempts
        results := numbered run.info.runId run.results } := by
  have own : runs.filter (·.info.checkName = run.info.checkName) ≠ [] :=
    List.ne_nil_of_mem (List.mem_filter.mpr ⟨member, by simp⟩)
  simp only [ofRun, find?_aggregate, own, ↓reduceIte, Option.getD_some]

private theorem derivedAmong_ofRun {runs : List Run} {run : Run} (member : run ∈ runs) :
    (ofRun (aggregate runs) run).DerivedAmong (runs.map (·.info)) := by
  rw [ofRun_aggregate member]
  have numbers : ((runs.filter (·.info.checkName = run.info.checkName)).map (·.info.attempt)) =
      attemptsOf (runs.map (·.info)) run.info.checkName := by
    rw [← map_attempt_detailsOf, detailsOf, List.map_map]
    rfl
  have single : (AttemptInfo.ofRuns (runs.filter (·.info.checkName = run.info.checkName))).isSingleAttempt = true ↔
      (attemptsOf (runs.map (·.info)) run.info.checkName).length = 1 := by
    rw [← numbers, List.length_map]
    exact beq_iff_eq
  refine ⟨rfl, ?_, single, ?_, ?_⟩
  · intro index result held
    simp only [numbered, List.getElem?_mapIdx, Option.map_eq_some_iff] at held
    obtain ⟨_, _, rfl⟩ := held
    rfl
  · simp only [AttemptInfo.isLatest, Bool.or_eq_true, Bool.and_eq_true, beq_iff_eq]
    refine or_congr single ?_
    simp only [AttemptInfo.ofRuns, numbers]
    constructor
    · rintro ⟨numbered, greatest⟩
      obtain ⟨number, carried⟩ := Option.isSome_iff_exists.mp numbered
      exact ⟨number, carried, foldl_laterAttempt_eq_some_iff.mp (greatest.symm.trans carried)⟩
    · rintro ⟨number, carried, greatest⟩
      exact ⟨by rw [carried]; rfl, carried.trans (foldl_laterAttempt_eq_some_iff.mpr greatest).symm⟩
  · rw [← map_attempt_detailsOf]
    exact AttemptDetail.map_attempt_sort _

theorem mem_deriveAll {runs : List Run} {run : CheckRun} :
    run ∈ deriveAll runs ↔ ∃ reported ∈ runs, ofRun (aggregate runs) reported = run :=
  List.mem_map

theorem map_info_deriveAll (runs : List Run) : (deriveAll runs).map (·.info) = runs.map (·.info) := by
  simp only [deriveAll, List.map_map]
  rfl

/-- Runs that are derived together have the derived data right. -/
theorem derivedAmong_of_mem_deriveAll {runs : List Run} {run : CheckRun} (member : run ∈ deriveAll runs) :
    run.DerivedAmong ((deriveAll runs).map (·.info)) := by
  obtain ⟨reported, held, rfl⟩ := mem_deriveAll.mp member
  rw [map_info_deriveAll]
  exact derivedAmong_ofRun held

/-- The attempts of a run are those of the runs of its check that were derived with it. -/
theorem arranges_of_mem_deriveAll {runs : List Run} {run : CheckRun} (member : run ∈ deriveAll runs) :
    AttemptDetail.Arranges run.attemptDetails (detailsOf runs run.info.checkName) := by
  obtain ⟨reported, held, rfl⟩ := mem_deriveAll.mp member
  rw [ofRun_aggregate held]
  exact AttemptDetail.arranges_sort _

/-- A run without what its results say: all but the results, and their ids. -/
def outline (run : CheckRun) : CheckRun × List String :=
  ({ run with results := [] }, run.results.map (·.id))

theorem info_of_outline {left right : CheckRun} (same : left.outline = right.outline) : left.info = right.info :=
  congrArg (·.1.info) same

theorem attemptDetails_of_outline {left right : CheckRun} (same : left.outline = right.outline) :
    left.attemptDetails = right.attemptDetails :=
  congrArg (·.1.attemptDetails) same

/-- Whether what is derived of a run is right can be told from its outline. -/
theorem DerivedAmong.of_outline {infos : List RunInfo} {left right : CheckRun} (same : left.outline = right.outline)
    (derived : right.DerivedAmong infos) : left.DerivedAmong infos := by
  have id : left.id = right.id := congrArg (·.1.id) same
  have info : left.info = right.info := info_of_outline same
  have single : left.isSingleAttempt = right.isSingleAttempt := congrArg (·.1.isSingleAttempt) same
  have latest : left.isLatestAttempt = right.isLatestAttempt := congrArg (·.1.isLatestAttempt) same
  refine ⟨?_, fun index result held => ?_, ?_, ?_, ?_⟩
  · rw [id, info]
    exact derived.id
  · have ids : left.results.map (·.id) = right.results.map (·.id) := congrArg (·.2) same
    have numbered : (right.results.map (·.id))[index]? = some result.id := by
      rw [← ids, List.getElem?_map, held]
      rfl
    obtain ⟨other, place, same_id⟩ := Option.map_eq_some_iff.mp (List.getElem?_map ▸ numbered)
    rw [← same_id, id]
    exact derived.result index other place
  · rw [single, info]
    exact derived.single
  · rw [latest, info]
    exact derived.latest
  · rw [attemptDetails_of_outline same, info]
    exact derived.attempts

end CheckRun

end ReviewChecks
