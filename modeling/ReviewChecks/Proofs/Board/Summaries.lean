import ReviewChecks.Proofs.Board.Derivation

/-! # The attempt summaries of an entry

Each held run carries the attempts of its check with an icon for each. These summaries are those of the runs that were
reported last, with the results that they had then: a push replaces a result and leaves every summary as it is
(`Store.summarizes_lastReport`). A summary can therefore show the icon of a result that is no longer held
(`Store.not_current_pushed`). The summaries are those that a report of the held runs would bring exactly as long as
every run still has the icon that it was reported with.
-/

namespace ReviewChecks

/-- The attempts that every run of an entry carries are those of the runs of its check among some runs, ascending and
those of equal number in the order of the runs. -/
def Entry.Summarizes (entry : Entry) (runs : List Run) : Prop :=
  ∀ run ∈ entry.runs, AttemptDetail.Arranges run.attemptDetails (detailsOf runs run.info.checkName)

/-- The runs of an entry as a provider would report them now. -/
def Entry.current (entry : Entry) : List Run :=
  entry.runs.map (·.toRun)

/-- Lists with the same keys in the same order are equal if they hold the same under each key. -/
private theorem eq_of_filter_eq {α κ : Type} [DecidableEq κ] (key : α → κ) {left right : List α}
    (keys : left.map key = right.map key)
    (same : ∀ wanted, left.filter (key · = wanted) = right.filter (key · = wanted)) : left = right := by
  induction left generalizing right with
  | nil => exact (List.map_eq_nil_iff.mp keys.symm).symm
  | cons first left ih =>
    cases right with
    | nil => cases keys
    | cons second right =>
      obtain ⟨head, tail⟩ := List.cons.inj keys
      have heads := same (key first)
      simp only [List.filter_cons, ← head, decide_true, ↓reduceIte, List.cons.injEq] at heads
      obtain ⟨rfl, _⟩ := heads
      refine congrArg (first :: ·) (ih tail fun wanted => ?_)
      have under := same wanted
      simp only [List.filter_cons] at under
      split at under
      · exact (List.cons.inj under).2
      · exact under

/-- The attempt that a run is, with the name of its check. -/
private def label (run : Run) : String × AttemptDetail :=
  (run.info.checkName, run.attemptDetail)

private theorem detailsOf_eq (runs : List Run) (checkName : String) :
    detailsOf runs checkName = ((runs.map label).filter (·.1 = checkName)).map (·.2) := by
  simp only [detailsOf, List.filter_map, List.map_map]
  rfl

private theorem filter_label (runs : List Run) (checkName : String) (attempt : Option UInt32) :
    (runs.map label).filter (fun entry => (entry.1, entry.2.attempt) = (checkName, attempt)) =
      ((detailsOf runs checkName).filter (·.attempt = attempt)).map (checkName, ·) := by
  induction runs with
  | nil => rfl
  | cons run rest ih =>
    by_cases named : run.info.checkName = checkName
    · by_cases numbered : run.info.attempt = attempt
      · simpa [detailsOf, label, Run.attemptDetail, named, numbered] using ih
      · simpa [detailsOf, label, Run.attemptDetail, named, numbered] using ih
    · simpa [detailsOf, label, Run.attemptDetail, named] using ih

private theorem map_label (runs : List Run) :
    runs.map label =
      List.zipWith (fun (info : RunInfo) icon => (info.checkName, { attempt := info.attempt, icon }))
        (runs.map (·.info)) (runs.map (·.icon)) := by
  induction runs with
  | nil => rfl
  | cons run rest ih => exact congrArg (label run :: ·) ih

private theorem detailsOf_eq_nil {runs : List Run} {checkName : String}
    (unnamed : ∀ info ∈ runs.map (·.info), info.checkName ≠ checkName) : detailsOf runs checkName = [] := by
  rw [detailsOf, List.filter_eq_nil_iff.mpr, List.map_nil]
  intro run member
  simpa using unnamed run.info (List.mem_map_of_mem member)

/-- An entry that summarizes runs described as its own summarizes other such runs exactly if they have the same
icons. -/
theorem Entry.Summarizes.iff_icons {entry : Entry} {left right : List Run} (summarizes : entry.Summarizes left)
    (own : entry.runs.map (·.info) = left.map (·.info)) (infos : right.map (·.info) = left.map (·.info)) :
    entry.Summarizes right ↔ right.map (·.icon) = left.map (·.icon) := by
  constructor
  · intro other
    have labels : right.map label = left.map label := by
      refine eq_of_filter_eq (fun entry => (entry.1, entry.2.attempt)) ?_ fun wanted => ?_
      · have keys := congrArg (List.map fun info : RunInfo => (info.checkName, info.attempt)) infos
        rw [List.map_map, List.map_map] at keys ⊢
        exact keys
      · obtain ⟨checkName, attempt⟩ := wanted
        rw [filter_label, filter_label]
        refine congrArg (List.map _) ?_
        by_cases named : ∃ run ∈ entry.runs, run.info.checkName = checkName
        · obtain ⟨run, held, rfl⟩ := named
          exact ((other run held).stable attempt).symm.trans ((summarizes run held).stable attempt)
        · have unnamed : ∀ info ∈ left.map (·.info), info.checkName ≠ checkName := by
            rw [← own]
            intro info member same
            obtain ⟨run, held, rfl⟩ := List.mem_map.mp member
            exact named ⟨run, held, same⟩
          rw [detailsOf_eq_nil unnamed, detailsOf_eq_nil (infos ▸ unnamed)]
    have icons := congrArg (List.map (·.2.icon)) labels
    rw [List.map_map, List.map_map] at icons
    exact icons
  · intro icons run held
    rw [detailsOf_eq, map_label, infos, icons, ← map_label, ← detailsOf_eq]
    exact summarizes run held

namespace Store

/-- The summaries of an entry are those of the runs that were reported last, with the results they had then. They are
those of the runs that the entry holds now exactly if no push has changed the icon of a run. -/
theorem summarizes_lastReport (mutations : List Mutation) (context : PatchsetContext) (entry : Entry)
    (member : entry ∈ entriesAfter mutations context) :
    entry.current.map (·.info) = (Board.lastReport context entry.plugin mutations).map (·.info) ∧
      entry.Summarizes (Board.lastReport context entry.plugin mutations) ∧
      (entry.Summarizes entry.current ↔
        entry.current.map (·.icon) = (Board.lastReport context entry.plugin mutations).map (·.icon)) := by
  have own := map_info_runs member
  have current : entry.current.map (·.info) = (Board.lastReport context entry.plugin mutations).map (·.info) := by
    rw [← own, Entry.current, List.map_map]
    rfl
  have summarizes : entry.Summarizes (Board.lastReport context entry.plugin mutations) := by
    intro run held
    obtain ⟨derived, reported, same⟩ := exists_derived member held
    rw [CheckRun.attemptDetails_of_outline same, CheckRun.info_of_outline same]
    exact CheckRun.arranges_of_mem_deriveAll reported
  exact ⟨current, summarizes, summarizes.iff_icons own current⟩

/-- The failure that has been taken back was part of the last report, and its icon is still in the summaries. -/
theorem summarizes_lastReport_pushed :
    ∃ entry, entry ∈ entriesAfter pushedMutations .latest ∧
      entry.current.map (·.icon) = [.success, .success, .success] ∧
      entry.Summarizes (Board.lastReport .latest entry.plugin pushedMutations) ∧
      ¬ entry.Summarizes entry.current := by
  have computed : ((entriesAfter pushedMutations .latest)[0]?.any fun entry => decide (
      entry.current.map (·.icon) = [.success, .success, .success] ∧
      entry.current.map (·.icon) ≠ (Board.lastReport .latest entry.plugin pushedMutations).map (·.icon))) = true := by
    decide
  obtain ⟨entry, first, facts⟩ := (Option.any_eq_true ..).mp computed
  obtain ⟨icons, changed⟩ := of_decide_eq_true facts
  have member := List.mem_of_getElem? first
  obtain ⟨_, reported, current⟩ := summarizes_lastReport pushedMutations .latest entry member
  exact ⟨entry, member, icons, reported, fun held => changed (current.mp held)⟩

/-- A push can leave an entry whose summaries are not those of the runs that it holds. -/
theorem not_current_pushed :
    ¬ ∀ entry ∈ entriesAfter pushedMutations .latest, entry.Summarizes entry.current := by
  intro current
  have computed : ((entriesAfter pushedMutations .latest)[0]?.any fun entry =>
      entry.runs[1]?.any fun run => decide (
        run.attemptDetails.filter (·.attempt = some 1) = [⟨some 1, .error⟩] ∧
        (detailsOf entry.current run.info.checkName).filter (·.attempt = some 1) = [⟨some 1, .success⟩])) = true := by
    decide
  obtain ⟨entry, first, runs⟩ := (Option.any_eq_true ..).mp computed
  obtain ⟨run, second, facts⟩ := (Option.any_eq_true ..).mp runs
  obtain ⟨shown, holds⟩ := of_decide_eq_true facts
  have same := (current entry (List.mem_of_getElem? first) run (List.mem_of_getElem? second)).stable (some 1)
  rw [shown, holds] at same
  cases same

end Store

end ReviewChecks
