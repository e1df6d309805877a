import Mathlib.Data.List.Perm.Basic
import ReviewChecks.Run.Attempt

/-! # What the runs of a check add up to

The attempts of a check are summed up run by run in a table of all checks. Here the sum is read off the runs of that
check alone (`find?_aggregate`): the attempts in stable ascending order (`AttemptDetail.arranges_sort`), the greatest
attempt number (`IsGreatestAttempt`, `foldl_laterAttempt_eq_some_iff`), and whether there is a single run. Stable
ascending order is a property of the two lists (`AttemptDetail.Arranges`) that leaves one arrangement only
(`AttemptDetail.Arranges.unique`).
-/

namespace ReviewChecks

@[simp] theorem attemptLe_refl (attempt : Option UInt32) : attemptLe attempt attempt = true := by
  cases attempt <;> simp [attemptLe]

theorem attemptLe_trans {first second third : Option UInt32} (left : attemptLe first second = true)
    (right : attemptLe second third = true) : attemptLe first third = true := by
  cases first with
  | none => rfl
  | some first =>
    cases second with
    | none => cases left
    | some second =>
      cases third with
      | none => cases right
      | some third =>
        simp only [attemptLe, decide_eq_true_eq] at left right ⊢
        exact UInt32.le_trans left right

theorem attemptLe_total (left right : Option UInt32) : attemptLe left right = true ∨ attemptLe right left = true := by
  cases left with
  | none => exact .inl rfl
  | some left =>
    cases right with
    | none => exact .inr rfl
    | some right =>
      simp only [attemptLe, decide_eq_true_eq]
      exact UInt32.le_total left right

theorem attemptLe_antisymm {left right : Option UInt32} (before : attemptLe left right = true)
    (after : attemptLe right left = true) : left = right := by
  cases left with
  | none =>
    cases right with
    | none => rfl
    | some right => cases after
  | some left =>
    cases right with
    | none => cases before
    | some right =>
      simp only [attemptLe, decide_eq_true_eq] at before after
      rw [UInt32.le_antisymm before after]

theorem attemptLe_laterAttempt_left (left right : Option UInt32) :
    attemptLe left (laterAttempt left right) = true := by
  unfold laterAttempt
  split
  next before => exact before
  next => exact attemptLe_refl left

theorem attemptLe_laterAttempt_right (left right : Option UInt32) :
    attemptLe right (laterAttempt left right) = true := by
  unfold laterAttempt
  split
  next => exact attemptLe_refl right
  next after => exact (attemptLe_total left right).resolve_left after

theorem laterAttempt_eq (left right : Option UInt32) :
    laterAttempt left right = left ∨ laterAttempt left right = right := by
  unfold laterAttempt
  split
  · exact .inr rfl
  · exact .inl rfl

/-- The greatest of some attempt numbers is one of them, and none of them is greater. -/
theorem foldl_laterAttempt (first : Option UInt32) (rest : List (Option UInt32)) :
    rest.foldl laterAttempt first ∈ first :: rest ∧
      ∀ attempt ∈ first :: rest, attemptLe attempt (rest.foldl laterAttempt first) = true := by
  induction rest generalizing first with
  | nil => simp
  | cons second rest ih =>
    obtain ⟨member, bound⟩ := ih (laterAttempt first second)
    rw [List.foldl_cons]
    constructor
    · rcases List.mem_cons.mp member with same | later
      · rw [same]
        rcases laterAttempt_eq first second with own | own
        · rw [own]
          exact List.mem_cons_self
        · rw [own]
          exact List.mem_cons_of_mem _ List.mem_cons_self
      · exact List.mem_cons_of_mem _ (List.mem_cons_of_mem _ later)
    · have top := bound _ List.mem_cons_self
      intro attempt member
      rcases List.mem_cons.mp member with rfl | member
      · exact attemptLe_trans (attemptLe_laterAttempt_left ..) top
      · rcases List.mem_cons.mp member with rfl | member
        · exact attemptLe_trans (attemptLe_laterAttempt_right ..) top
        · exact bound attempt (List.mem_cons_of_mem _ member)

/-- A number is among some attempt numbers, and none of them is greater. -/
def IsGreatestAttempt (number : UInt32) (attempts : List (Option UInt32)) : Prop :=
  some number ∈ attempts ∧ ∀ other, some other ∈ attempts → other ≤ number

theorem foldl_laterAttempt_eq_some_iff {attempts : List (Option UInt32)} {number : UInt32} :
    attempts.foldl laterAttempt none = some number ↔ IsGreatestAttempt number attempts := by
  obtain ⟨member, bound⟩ := foldl_laterAttempt none attempts
  constructor
  · intro greatest
    rw [greatest] at member bound
    refine ⟨by simpa using member, fun other held => ?_⟩
    have below := bound (some other) (List.mem_cons_of_mem _ held)
    simpa [attemptLe] using below
  · rintro ⟨held, least⟩
    have above := bound (some number) (List.mem_cons_of_mem _ held)
    cases greatest : attempts.foldl laterAttempt none with
    | none =>
      rw [greatest] at above
      cases above
    | some other =>
      rw [greatest] at above member
      have upper := least other (by simpa using member)
      have lower : number ≤ other := by simpa [attemptLe] using above
      rw [UInt32.le_antisymm upper lower]

/-- Some number is the greatest exactly if there is a number at all. -/
theorem exists_isGreatestAttempt_iff {attempts : List (Option UInt32)} :
    (∃ number, IsGreatestAttempt number attempts) ↔ ∃ attempt ∈ attempts, attempt.isSome := by
  constructor
  · rintro ⟨number, held, _⟩
    exact ⟨some number, held, rfl⟩
  · rintro ⟨attempt, held, numbered⟩
    have above := (foldl_laterAttempt none attempts).2 attempt (List.mem_cons_of_mem _ held)
    cases greatest : attempts.foldl laterAttempt none with
    | some number => exact ⟨number, foldl_laterAttempt_eq_some_iff.mp greatest⟩
    | none =>
      rw [greatest] at above
      cases attempt with
      | none => cases numbered
      | some number => cases above

namespace AttemptDetail

/-- A list holds the attempts of another in ascending order, and of each attempt number the same attempts in the order
of the other. -/
structure Arranges (sorted details : List AttemptDetail) : Prop where
  ascending : sorted.Pairwise fun left right => attemptLe left.attempt right.attempt = true
  stable : ∀ attempt, sorted.filter (·.attempt = attempt) = details.filter (·.attempt = attempt)

namespace Arranges

theorem perm {sorted details : List AttemptDetail} (arranges : Arranges sorted details) : sorted.Perm details := by
  refine List.perm_iff_count.mpr fun detail => ?_
  have same := congrArg (List.count detail) (arranges.stable detail.attempt)
  rwa [List.count_filter (by simp), List.count_filter (by simp)] at same

private theorem attempt_head_le {left right details : List AttemptDetail} {first second : AttemptDetail}
    (arranges : Arranges (first :: left) details) (other : Arranges (second :: right) details) :
    attemptLe first.attempt second.attempt = true := by
  have member : second ∈ first :: left := (arranges.perm.trans other.perm.symm).mem_iff.mpr List.mem_cons_self
  rcases List.mem_cons.mp member with rfl | member
  · exact attemptLe_refl _
  · exact (List.pairwise_cons.mp arranges.ascending).1 second member

/-- There is only one such arrangement. -/
theorem unique {left right details : List AttemptDetail} (arranges : Arranges left details)
    (other : Arranges right details) : left = right := by
  induction left generalizing right details with
  | nil =>
    have empty := arranges.perm.trans other.perm.symm
    exact (List.nil_perm.mp empty).symm
  | cons first left ih =>
    cases right with
    | nil => exact List.perm_nil.mp (arranges.perm.trans other.perm.symm)
    | cons second right =>
      -- both heads carry the least number, and are the first that do
      have number : first.attempt = second.attempt :=
        attemptLe_antisymm (attempt_head_le arranges other) (attempt_head_le other arranges)
      have heads := (arranges.stable first.attempt).trans (other.stable first.attempt).symm
      simp only [List.filter_cons, number, decide_true, ↓reduceIte, List.cons.injEq] at heads
      obtain ⟨rfl, _⟩ := heads
      have tails : Arranges left right := by
        refine ⟨(List.pairwise_cons.mp arranges.ascending).2, fun attempt => ?_⟩
        have same := (arranges.stable attempt).trans (other.stable attempt).symm
        simp only [List.filter_cons] at same
        split at same
        · exact (List.cons.inj same).2
        · exact same
      rw [ih tails ⟨(List.pairwise_cons.mp other.ascending).2, fun _ => rfl⟩]

end Arranges

theorem filter_insertSorted (detail : AttemptDetail) (details : List AttemptDetail) (attempt : Option UInt32) :
    (insertSorted detail details).filter (·.attempt = attempt) = (detail :: details).filter (·.attempt = attempt) := by
  induction details with
  | nil => rfl
  | cons head rest ih =>
    unfold insertSorted
    split
    next => rfl
    next after =>
      -- the two that change places carry different numbers
      have differ : ¬ (detail.attempt = attempt ∧ head.attempt = attempt) := by
        rintro ⟨rfl, same⟩
        exact after (same ▸ attemptLe_refl _)
      rw [List.filter_cons, ih]
      by_cases own : head.attempt = attempt
      · have other : detail.attempt ≠ attempt := fun same => differ ⟨same, own⟩
        simp [own, other]
      · simp [List.filter_cons, own]

theorem mem_insertSorted {detail other : AttemptDetail} {details : List AttemptDetail}
    (member : other ∈ insertSorted detail details) : other = detail ∨ other ∈ details := by
  have own : other ∈ (insertSorted detail details).filter (·.attempt = other.attempt) := by simpa using member
  rw [filter_insertSorted] at own
  exact List.mem_cons.mp (List.mem_filter.mp own).1

theorem ascending_insertSorted (detail : AttemptDetail) {details : List AttemptDetail}
    (ascending : details.Pairwise fun left right => attemptLe left.attempt right.attempt = true) :
    (insertSorted detail details).Pairwise fun left right => attemptLe left.attempt right.attempt = true := by
  induction details with
  | nil => simp [insertSorted]
  | cons head rest ih =>
    obtain ⟨least, ascending_rest⟩ := List.pairwise_cons.mp ascending
    unfold insertSorted
    split
    next before =>
      refine List.pairwise_cons.mpr ⟨fun other member => ?_, ascending⟩
      rcases List.mem_cons.mp member with rfl | member
      · exact before
      · exact attemptLe_trans before (least other member)
    next after =>
      refine List.pairwise_cons.mpr ⟨fun other member => ?_, ih ascending_rest⟩
      rcases mem_insertSorted member with rfl | member
      · exact (attemptLe_total other.attempt head.attempt).resolve_left after
      · exact least other member

/-- Sorting is stable. -/
theorem arranges_sort (details : List AttemptDetail) : Arranges (sort details) details := by
  induction details with
  | nil => exact ⟨.nil, fun _ => rfl⟩
  | cons detail rest ih =>
    refine ⟨ascending_insertSorted detail ih.ascending, fun attempt => ?_⟩
    rw [sort, List.foldr_cons, filter_insertSorted, List.filter_cons, List.filter_cons]
    have same := ih.stable attempt
    rw [sort] at same
    rw [same]

/-- The numbers of sorted attempts are the sorted numbers. -/
theorem map_attempt_sort (details : List AttemptDetail) :
    (sort details).map (·.attempt) = (details.map (·.attempt)).mergeSort attemptLe := by
  have arranges := arranges_sort details
  have trans : ∀ first second third, attemptLe first second = true → attemptLe second third = true →
      attemptLe first third = true := fun _ _ _ => attemptLe_trans
  have total : ∀ left right, (attemptLe left right || attemptLe right left) = true := fun left right => by
    rw [Bool.or_eq_true]
    exact attemptLe_total left right
  have sorted := List.pairwise_mergeSort trans total (details.map (·.attempt))
  refine List.Perm.eq_of_pairwise (fun _ _ _ _ => attemptLe_antisymm) ?_ sorted ?_
  · exact List.pairwise_map.mpr arranges.ascending
  · exact (arranges.perm.map _).trans (List.mergeSort_perm ..).symm

end AttemptDetail

namespace AttemptInfo

/-- What some runs of one check add up to. -/
def ofRuns (runs : List Run) : AttemptInfo where
  attempts := AttemptDetail.sort (runs.map Run.attemptDetail)
  latestAttempt := (runs.map (·.info.attempt)).foldl laterAttempt none
  isSingleAttempt := runs.length == 1

private theorem foldl_note (info : AttemptInfo) (runs : List Run) :
    runs.foldl note info =
      { attempts := info.attempts ++ runs.map Run.attemptDetail
        latestAttempt := (runs.map (·.info.attempt)).foldl laterAttempt info.latestAttempt
        isSingleAttempt := info.isSingleAttempt && runs.isEmpty } := by
  induction runs generalizing info with
  | nil => simp
  | cons run rest ih => simp [ih, note]

theorem sorted_foldl_note (run : Run) (rest : List Run) :
    (rest.foldl note (ofFirst run)).sorted = ofRuns (run :: rest) := by
  rw [foldl_note]
  cases rest <;> rfl

end AttemptInfo

/-- What is known of a check after one more of its runs. -/
private def noteOne : Option AttemptInfo → Run → Option AttemptInfo
  | some info, run => some (info.note run)
  | none, run => some (.ofFirst run)

private theorem find?_noteRun (known : Table AttemptInfo) (run : Run) (checkName : String) :
    (noteRun known run).find? checkName =
      if run.info.checkName = checkName then noteOne (known.find? checkName) run else known.find? checkName := by
  rw [noteRun, Table.find?_insert]
  by_cases same : run.info.checkName = checkName
  · subst same
    simp only [↓reduceIte]
    cases known.find? run.info.checkName <;> rfl
  · simp [same, Ne.symm same]

private theorem find?_foldl_noteRun (known : Table AttemptInfo) (runs : List Run) (checkName : String) :
    (runs.foldl noteRun known).find? checkName =
      (runs.filter (·.info.checkName = checkName)).foldl noteOne (known.find? checkName) := by
  induction runs generalizing known with
  | nil => rfl
  | cons run rest ih =>
    rw [List.foldl_cons, ih, find?_noteRun, List.filter_cons]
    by_cases same : run.info.checkName = checkName
    · simp [same]
    · simp [same]

private theorem foldl_noteOne (info : AttemptInfo) (runs : List Run) :
    runs.foldl noteOne (some info) = some (runs.foldl AttemptInfo.note info) := by
  induction runs generalizing info with
  | nil => rfl
  | cons run rest ih => exact ih (info.note run)

/-- The table knows a check exactly if some run is of that check, and then what the runs of that check add up to. -/
theorem find?_aggregate (runs : List Run) (checkName : String) :
    (aggregate runs).find? checkName =
      if runs.filter (·.info.checkName = checkName) = [] then none
      else some (.ofRuns (runs.filter (·.info.checkName = checkName))) := by
  rw [aggregate, Table.find?_map, find?_foldl_noteRun, Table.find?_empty]
  cases runs.filter (·.info.checkName = checkName) with
  | nil => rfl
  | cons run rest =>
    rw [List.foldl_cons, noteOne, foldl_noteOne, Option.map_some, AttemptInfo.sorted_foldl_note]
    simp

end ReviewChecks
