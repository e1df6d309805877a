import ReviewChecks.Proofs.Run.Derivation
import ReviewChecks.Proofs.Table

/-! # The attempts of all checks

What is known of the attempts of a check is told by the runs of that check alone (`AttemptInfo.SumsUp`): how they are
sorted, which icon each of them has (`Run.HasIcon`), which number is the greatest and whether there is one run only. The
table has an entry for each check that has a run. Taking the runs in another order therefore changes nothing but the
order of attempts that carry the same number (`AttemptInfo.SameUpToTies`).
-/

namespace ReviewChecks

namespace Category

/-- A category is among some, and none of them is more severe. -/
structure IsWorst (category : Category) (findings : List Category) : Prop where
  member : category ∈ findings
  bound : ∀ other ∈ findings, other.severity ≤ category.severity

theorem severity_injective {left right : Category} (same : left.severity = right.severity) : left = right := by
  cases left <;> cases right <;> first | rfl | cases same

theorem IsWorst.unique {left right : Category} {findings : List Category} (worst : left.IsWorst findings)
    (other : right.IsWorst findings) : left = right :=
  severity_injective (Nat.le_antisymm (other.bound left worst.member) (worst.bound right other.member))

theorem isWorst_worse (left right : Category) : (worse left right).IsWorst [left, right] := by
  unfold worse
  split
  next below => exact ⟨by simp, by simpa using Nat.le_of_lt below⟩
  next above => exact ⟨by simp, by simpa using Nat.not_lt.mp above⟩

theorem isWorst_foldl_worse (first : Category) (rest : List Category) :
    (rest.foldl worse first).IsWorst (first :: rest) := by
  induction rest generalizing first with
  | nil => exact ⟨List.mem_cons_self, by simp⟩
  | cons second rest ih =>
    obtain ⟨member, bound⟩ := ih (worse first second)
    obtain ⟨either, above⟩ := isWorst_worse first second
    rw [List.foldl_cons]
    constructor
    · rcases List.mem_cons.mp member with same | later
      · rw [same]
        exact List.mem_append_left rest either
      · exact List.mem_append_right [first, second] later
    · have top := bound _ List.mem_cons_self
      intro other held
      rcases List.mem_append.mp (show other ∈ [first, second] ++ rest from held) with early | later
      · exact Nat.le_trans (above other early) top
      · exact bound other (List.mem_cons_of_mem _ later)

theorem worst?_eq_some_iff {findings : List Category} {category : Category} :
    worst? findings = some category ↔ category.IsWorst findings := by
  cases findings with
  | nil => exact ⟨nofun, fun worst => absurd worst.member List.not_mem_nil⟩
  | cons first rest =>
    have worst := isWorst_foldl_worse first rest
    exact ⟨fun same => Option.some.inj same ▸ worst, fun other => congrArg some (worst.unique other)⟩

end Category

/-- The icon of a run: its status until it is completed, then the worst category among its results, and success when it
has none. -/
inductive Run.HasIcon (run : Run) : StatusIcon → Prop
  | runnable (stage : run.info.status = .runnable) : HasIcon run .runnable
  | scheduled (stage : run.info.status = .scheduled) : HasIcon run .scheduled
  | running (stage : run.info.status = .running) : HasIcon run .running
  | finding {category : Category} (stage : run.info.status = .completed)
      (worst : category.IsWorst (run.results.map (·.category))) : HasIcon run (.ofCategory category)
  | clean (stage : run.info.status = .completed) (empty : run.results = []) : HasIcon run .success

theorem Run.hasIcon_iff {run : Run} {icon : StatusIcon} : run.HasIcon icon ↔ run.icon = icon := by
  constructor
  · intro shown
    cases shown with
    | runnable stage | scheduled stage | running stage => rw [Run.icon, stage]; rfl
    | finding stage worst => rw [Run.icon, stage, StatusIcon.ofOutcome, Category.worst?_eq_some_iff.mpr worst]; rfl
    | clean stage empty => rw [Run.icon, stage, empty]; rfl
  · rintro rfl
    cases stage : run.info.status with
    | runnable => rw [Run.icon, stage]; exact .runnable stage
    | scheduled => rw [Run.icon, stage]; exact .scheduled stage
    | running => rw [Run.icon, stage]; exact .running stage
    | completed =>
      rw [Run.icon, stage, StatusIcon.ofOutcome]
      cases found : Category.worst? (run.results.map (·.category)) with
      | some category => exact .finding stage (Category.worst?_eq_some_iff.mp found)
      | none =>
        refine .clean stage ?_
        cases results : run.results with
        | nil => rfl
        | cons result rest => rw [results] at found; cases found

namespace AttemptDetail

/-- The attempts of a list in stable ascending order are its merge sort. -/
theorem arranges_mergeSort (details : List AttemptDetail) :
    Arranges (details.mergeSort fun left right => attemptLe left.attempt right.attempt) details := by
  have trans : ∀ first second third : AttemptDetail, attemptLe first.attempt second.attempt = true →
      attemptLe second.attempt third.attempt = true → attemptLe first.attempt third.attempt = true :=
    fun _ _ _ => attemptLe_trans
  have total : ∀ left right : AttemptDetail,
      (attemptLe left.attempt right.attempt || attemptLe right.attempt left.attempt) = true := fun left right => by
    rw [Bool.or_eq_true]
    exact attemptLe_total left.attempt right.attempt
  refine ⟨List.pairwise_mergeSort trans total details, fun attempt => ?_⟩
  -- the attempts of one number are in order already, and therefore stay in their order
  have ties : (details.filter (·.attempt = attempt)).Pairwise fun left right =>
      attemptLe left.attempt right.attempt = true := by
    refine List.pairwise_of_forall_mem_list fun left member right memberToo => ?_
    have own : left.attempt = attempt := by simpa using (List.mem_filter.mp member).2
    have ownToo : right.attempt = attempt := by simpa using (List.mem_filter.mp memberToo).2
    rw [own, ownToo]
    exact attemptLe_refl attempt
  have kept := (List.sublist_mergeSort trans total ties List.filter_sublist).filter (·.attempt = attempt)
  rw [List.filter_filter] at kept
  simp only [Bool.and_self] at kept
  exact (kept.eq_of_length ((List.mergeSort_perm details _).filter _).length_eq.symm).symm

end AttemptDetail

namespace AttemptInfo

/-- What is known of the attempts of a check, from the runs of that check. -/
structure SumsUp (runs : List Run) (info : AttemptInfo) : Prop where
  attempts : ∃ details : List AttemptDetail,
    List.Forall₂ (fun run detail => detail.attempt = run.info.attempt ∧ run.HasIcon detail.icon) runs details ∧
      info.attempts = details.mergeSort fun left right => attemptLe left.attempt right.attempt
  latest : ∀ number, info.latestAttempt = some number ↔ IsGreatestAttempt number (runs.map (·.info.attempt))
  unnumbered : info.latestAttempt = none ↔ ∀ run ∈ runs, run.info.attempt = none
  single : info.isSingleAttempt = true ↔ runs.length = 1

/-- What is known of two checks differs at most in the order of attempts that carry the same number. -/
structure SameUpToTies (left right : AttemptInfo) : Prop where
  attempts : left.attempts.Perm right.attempts
  numbers : left.attempts.map (·.attempt) = right.attempts.map (·.attempt)
  latest : left.latestAttempt = right.latestAttempt
  single : left.isSingleAttempt = right.isSingleAttempt

theorem ofRuns_sumsUp (runs : List Run) : (ofRuns runs).SumsUp runs := by
  refine ⟨⟨runs.map Run.attemptDetail, ?_, ?_⟩, fun number => foldl_laterAttempt_eq_some_iff, ?_, beq_iff_eq⟩
  · rw [List.forall₂_map_right_iff, List.forall₂_same]
    exact fun run _ => ⟨rfl, Run.hasIcon_iff.mpr rfl⟩
  · exact (AttemptDetail.arranges_sort _).unique (AttemptDetail.arranges_mergeSort _)
  · have numbered : (∃ number, (ofRuns runs).latestAttempt = some number) ↔
        ∃ attempt ∈ runs.map (·.info.attempt), attempt.isSome :=
      (exists_congr fun _ => foldl_laterAttempt_eq_some_iff).trans exists_isGreatestAttempt_iff
    rw [← Option.isSome_iff_exists] at numbered
    rw [← Option.not_isSome_iff_eq_none, numbered]
    simp

theorem sameUpToTies_of_perm {runs others : List Run} (order : runs.Perm others) :
    (ofRuns runs).SameUpToTies (ofRuns others) := by
  have attempts : (ofRuns runs).attempts.Perm (ofRuns others).attempts :=
    (AttemptDetail.arranges_sort _).perm.trans
      ((order.map Run.attemptDetail).trans (AttemptDetail.arranges_sort _).perm.symm)
  have numbers : (runs.map (·.info.attempt)).Perm (others.map (·.info.attempt)) := order.map _
  refine ⟨attempts, ?_, Option.ext fun number => ?_, ?_⟩
  · refine List.Perm.eq_of_pairwise (fun _ _ _ _ => attemptLe_antisymm) ?_ ?_ (attempts.map _)
    · exact List.pairwise_map.mpr (AttemptDetail.arranges_sort _).ascending
    · exact List.pairwise_map.mpr (AttemptDetail.arranges_sort _).ascending
  · rw [(ofRuns_sumsUp runs).latest, (ofRuns_sumsUp others).latest]
    simp only [IsGreatestAttempt, numbers.mem_iff]
  · simp only [ofRuns, order.length_eq]

end AttemptInfo

theorem find?_aggregate_eq_some_iff {runs : List Run} {checkName : String} {info : AttemptInfo} :
    (aggregate runs).find? checkName = some info ↔
      checkName ∈ runs.map (·.info.checkName) ∧ .ofRuns (runs.filter (·.info.checkName = checkName)) = info := by
  rw [find?_aggregate]
  have occurs : checkName ∈ runs.map (·.info.checkName) ↔ runs.filter (·.info.checkName = checkName) ≠ [] := by
    simp [List.filter_eq_nil_iff]
  rw [occurs]
  split
  next empty => exact ⟨nofun, fun present => absurd empty present.1⟩
  next present => exact ⟨fun same => ⟨present, Option.some.inj same⟩, fun known => congrArg some known.2⟩

theorem mem_names_aggregate {runs : List Run} {checkName : String} :
    checkName ∈ (aggregate runs).names ↔ checkName ∈ runs.map (·.info.checkName) := by
  simp only [Table.mem_names_iff, find?_aggregate_eq_some_iff, exists_and_left, exists_eq', and_true]

theorem names_aggregate_of_perm {runs others : List Run} (order : runs.Perm others) :
    (aggregate runs).names = (aggregate others).names := by
  refine Table.names_eq_of_mem_iff fun checkName => ?_
  rw [mem_names_aggregate, mem_names_aggregate, (order.map _).mem_iff]

theorem find?_aggregate_of_perm {runs others : List Run} (order : runs.Perm others) (checkName : String) :
    Option.Rel AttemptInfo.SameUpToTies ((aggregate runs).find? checkName) ((aggregate others).find? checkName) := by
  have group := order.filter (·.info.checkName = checkName)
  rw [find?_aggregate, find?_aggregate]
  by_cases empty : runs.filter (·.info.checkName = checkName) = []
  · have emptyToo : others.filter (·.info.checkName = checkName) = [] := List.perm_nil.mp (empty ▸ group).symm
    rw [if_pos empty, if_pos emptyToo]
    exact .none
  · have presentToo : others.filter (·.info.checkName = checkName) ≠ [] := fun absent =>
      empty (List.perm_nil.mp (absent ▸ group))
    rw [if_neg empty, if_neg presentToo]
    exact .some (AttemptInfo.sameUpToTies_of_perm group)

/-- The table has one entry for each check that occurs, which sums up the runs of that check, and only the order of
attempts with equal numbers depends on the order of the runs. -/
theorem aggregate_sumsUp (runs : List Run) :
    (aggregate runs).names.Nodup ∧
      (∀ checkName, checkName ∈ (aggregate runs).names ↔ checkName ∈ runs.map (·.info.checkName)) ∧
      (∀ checkName info, (aggregate runs).find? checkName = some info →
        info.SumsUp (runs.filter (·.info.checkName = checkName))) ∧
      ∀ others, runs.Perm others → (aggregate runs).names = (aggregate others).names ∧
        ∀ checkName, Option.Rel AttemptInfo.SameUpToTies ((aggregate runs).find? checkName)
          ((aggregate others).find? checkName) := by
  refine ⟨Table.nodup_names _, fun checkName => mem_names_aggregate, fun checkName info known => ?_,
    fun others order => ⟨names_aggregate_of_perm order, find?_aggregate_of_perm order⟩⟩
  obtain ⟨_, rfl⟩ := find?_aggregate_eq_some_iff.mp known
  exact AttemptInfo.ofRuns_sumsUp _

/-- Runs of two checks, out of order, with an attempt that is there twice and one without a number. -/
def mixedRuns : List Run :=
  let run (checkName : String) (attempt : Option UInt32) (status : RunStatus) (findings : List Category) : Run :=
    ⟨{ change := 42, patchset := 3, attempt, checkName, status },
      findings.map fun category => { category, summary := "" }⟩
  [run "build" (some 2) .completed [.info, .error, .warning], run "lint" none .running [.error],
    run "build" none .completed [], run "build" (some 2) .scheduled []]

theorem aggregate_sumsUp_mixed :
    let info : AttemptInfo := ⟨[⟨none, .success⟩, ⟨some 2, .error⟩, ⟨some 2, .scheduled⟩], some 2, false⟩
    (aggregate mixedRuns).find? "build" = some info ∧ mixedRuns.Perm mixedRuns.reverse ∧
      info.SumsUp (mixedRuns.filter (·.info.checkName = "build")) ∧
      (aggregate mixedRuns).names = (aggregate mixedRuns.reverse).names := by
  intro info
  have known : (aggregate mixedRuns).find? "build" = some info := by decide
  obtain ⟨_, _, sums, orders⟩ := aggregate_sumsUp mixedRuns
  have order : mixedRuns.Perm mixedRuns.reverse := (List.reverse_perm mixedRuns).symm
  exact ⟨known, order, sums "build" info known, (orders mixedRuns.reverse order).1⟩

end ReviewChecks
