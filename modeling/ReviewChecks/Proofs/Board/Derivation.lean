import Mathlib.Data.List.Induction
import ReviewChecks.Proofs.Board.Names
import ReviewChecks.Proofs.Run.Derivation

/-! # The runs that an entry holds

The runs of an entry were derived together from those that an answer of the provider reported last
(`Board.lastReport`). Since then pushes may have replaced results, which changes what results say but not the outlines
of the runs (`Entry.map_outline_push?`). So in every store the outlines are those of the last report
(`Store.map_outline_runs`), and what is derived of the held runs is right among them (`Store.derivedAmong_held`).
-/

namespace ReviewChecks

theorem map_id_replaceResult? {externalId : String} {updated : CheckResult} {results replaced : List RunResult}
    (comes : replaceResult? externalId updated results = some replaced) :
    replaced.map (·.id) = results.map (·.id) := by
  induction results generalizing replaced with
  | nil => cases comes
  | cons held rest ih =>
    unfold replaceResult? at comes
    split at comes
    next =>
      obtain rfl := Option.some.inj comes
      rfl
    next =>
      obtain ⟨others, found, rfl⟩ := Option.map_eq_some_iff.mp comes
      rw [List.map_cons, List.map_cons, ih found]

theorem CheckRun.outline_replaceResult? {run replaced : CheckRun} {target : RunInfo} {externalId : String}
    {updated : CheckResult} (comes : run.replaceResult? target externalId updated = some replaced) :
    replaced.outline = run.outline := by
  unfold replaceResult? at comes
  split at comes
  next =>
    obtain ⟨results, found, rfl⟩ := Option.map_eq_some_iff.mp comes
    rw [outline, outline, map_id_replaceResult? found]
  next => cases comes

/-- A push changes no outline. -/
theorem Entry.map_outline_push? {entry pushed : Entry} {target : RunInfo} {updated : CheckResult}
    (comes : entry.push? target updated = some pushed) :
    pushed.runs.map CheckRun.outline = entry.runs.map CheckRun.outline := by
  simp only [push?, bind, Option.bind_eq_some_iff] at comes
  obtain ⟨externalId, _, held⟩ := comes
  split at held
  next =>
    obtain rfl := Option.some.inj held
    rw [List.map_map]
    refine List.map_congr_left fun run _ => ?_
    cases replaced : run.replaceResult? target externalId updated with
    | none => simp only [Function.comp_apply, replaced, Option.getD_none]
    | some next =>
      simp only [Function.comp_apply, replaced, Option.getD_some]
      exact CheckRun.outline_replaceResult? replaced
  next => cases held

/-- The runs that an entry was last told of, after a mutation. An answer without data and a fresh entry leave none. -/
def Mutation.reportAfter (context : PatchsetContext) (plugin : String) (reported : List Run) : Mutation → List Run
  | .load changed within runs _ _ => if changed = plugin ∧ within = context then runs else reported
  | .register changed within | .fail changed within _ | .requireLogin changed within _ =>
    if changed = plugin ∧ within = context then [] else reported
  | .remove changed => if changed = plugin then [] else reported
  | .startLoading _ _ | .push _ _ _ | .setPin _ | .normalizePin _ => reported

/-- The runs that the entry of a provider in a context was last told of. -/
def Board.lastReport (context : PatchsetContext) (plugin : String) (mutations : List Mutation) : List Run :=
  mutations.foldl (Mutation.reportAfter context plugin) []

/-- The runs of an entry, none when there is no entry. -/
private def runsOf (entry : Option Entry) : List CheckRun :=
  (entry.map (·.runs)).getD []

private theorem map_outline_entryAfter (context : PatchsetContext) (plugin : String) {entry : Option Entry}
    {reported : List Run}
    (same : (runsOf entry).map CheckRun.outline = (CheckRun.deriveAll reported).map CheckRun.outline)
    (mutation : Mutation) :
    (runsOf (mutation.entryAfter context plugin entry)).map CheckRun.outline =
      (CheckRun.deriveAll (mutation.reportAfter context plugin reported)).map CheckRun.outline := by
  cases mutation with
  | register changed within | fail changed within | requireLogin changed within | load changed within
  | remove changed =>
    simp only [Mutation.entryAfter, Mutation.reportAfter]
    split
    · rfl
    · exact same
  | startLoading changed within =>
    simp only [Mutation.entryAfter, Mutation.reportAfter]
    split
    · rw [← same]
      cases entry <;> rfl
    · exact same
  | push changed run result =>
    simp only [Mutation.entryAfter, Mutation.reportAfter]
    split
    · rw [← same]
      cases entry with
      | none => rfl
      | some entry =>
        cases comes : entry.push? run result with
        | none => simp only [Option.map_some, comes, Option.getD_none]
        | some pushed =>
          simp only [Option.map_some, comes, Option.getD_some]
          exact Entry.map_outline_push? comes
    · exact same
  | setPin | normalizePin => exact same

namespace Store

private theorem map_outline_runsOf (mutations : List Mutation) (context : PatchsetContext) (plugin : String) :
    (runsOf ((Store.applyAll {} mutations).board.entry? context plugin)).map CheckRun.outline =
      (CheckRun.deriveAll (Board.lastReport context plugin mutations)).map CheckRun.outline := by
  rw [entry?_applyAll, Board.lastReport]
  induction mutations using List.reverseRecOn with
  | nil => cases context <;> rfl
  | append_singleton mutations mutation ih =>
    rw [List.foldl_concat, List.foldl_concat]
    exact map_outline_entryAfter context plugin ih mutation

/-- In every store the runs of an entry have the outlines of the runs that were reported last. -/
theorem map_outline_runs {mutations : List Mutation} {context : PatchsetContext} {entry : Entry}
    (member : entry ∈ entriesAfter mutations context) :
    entry.runs.map CheckRun.outline =
      (CheckRun.deriveAll (Board.lastReport context entry.plugin mutations)).map CheckRun.outline := by
  have outlines := map_outline_runsOf mutations context entry.plugin
  rwa [entry?_eq_some_of_mem member] at outlines

theorem map_info_runs {mutations : List Mutation} {context : PatchsetContext} {entry : Entry}
    (member : entry ∈ entriesAfter mutations context) :
    entry.runs.map (·.info) = (Board.lastReport context entry.plugin mutations).map (·.info) := by
  have infos := congrArg (List.map (·.1.info)) (map_outline_runs member)
  rw [List.map_map, List.map_map] at infos
  exact infos.trans (CheckRun.map_info_deriveAll _)

/-- Every held run has the outline of one that was derived from the last report. -/
theorem exists_derived {mutations : List Mutation} {context : PatchsetContext} {entry : Entry}
    (member : entry ∈ entriesAfter mutations context) {run : CheckRun}
    (held : run ∈ entry.runs) :
    ∃ derived ∈ CheckRun.deriveAll (Board.lastReport context entry.plugin mutations),
      run.outline = derived.outline := by
  have outlined : run.outline ∈ entry.runs.map CheckRun.outline := List.mem_map_of_mem held
  rw [map_outline_runs member] at outlined
  obtain ⟨derived, reported, same⟩ := List.mem_map.mp outlined
  exact ⟨derived, reported, same.symm⟩

/-- What is derived of a held run is right among the runs that were reported last. -/
theorem derivedAmong_lastReport {mutations : List Mutation} {context : PatchsetContext} {entry : Entry}
    (member : entry ∈ entriesAfter mutations context) {run : CheckRun}
    (held : run ∈ entry.runs) :
    run.DerivedAmong ((Board.lastReport context entry.plugin mutations).map (·.info)) := by
  obtain ⟨derived, reported, same⟩ := exists_derived member held
  have right := CheckRun.derivedAmong_of_mem_deriveAll reported
  rw [CheckRun.map_info_deriveAll] at right
  exact right.of_outline same

/-- What is derived of a held run is right among the runs of its entry, whatever mutations led to it. -/
theorem derivedAmong_held (mutations : List Mutation) (context : PatchsetContext) (entry : Entry)
    (member : entry ∈ entriesAfter mutations context) (run : CheckRun)
    (held : run ∈ entry.runs) : run.DerivedAmong (entry.runs.map (·.info)) := by
  rw [map_info_runs member]
  exact derivedAmong_lastReport member held

/-- A provider reports a failed build, its second attempt and a run without an attempt number; then the failure is
taken back by a push. -/
def pushedMutations : List Mutation :=
  let failed : RunInfo := { change := 42, patchset := 3, attempt := some 1, checkName := "build" }
  [.register "ci" .latest,
    .load "ci" .latest
      [{ info := { failed with attempt := some 2 } },
        { info := failed, results := [{ externalId := some "r1", category := .error, summary := "broken" }] },
        { info := { failed with attempt := none, checkName := "lint" } }] [] [],
    .push "ci" failed { externalId := some "r1", category := .success, summary := "fixed" }]

/-- After a push the run that was pushed to is still derived right: it is the first of two attempts. -/
theorem derivedAmong_held_pushed :
    ∃ entry run, entry ∈ entriesAfter pushedMutations .latest ∧ run ∈ entry.runs ∧
      run.results.map (·.result.summary) = ["fixed"] ∧ run.isLatestAttempt = false ∧
      run.DerivedAmong (entry.runs.map (·.info)) := by
  have computed : ((entriesAfter pushedMutations .latest)[0]?.any fun entry =>
      entry.runs[1]?.any fun run => decide (
        run.results.map (·.result.summary) = ["fixed"] ∧ run.isLatestAttempt = false)) = true := by
    decide
  obtain ⟨entry, first, runs⟩ := (Option.any_eq_true ..).mp computed
  obtain ⟨run, second, facts⟩ := (Option.any_eq_true ..).mp runs
  obtain ⟨replaced, earlier⟩ := of_decide_eq_true facts
  have member := List.mem_of_getElem? first
  have held := List.mem_of_getElem? second
  exact ⟨entry, run, member, held, replaced, earlier, derivedAmong_held pushedMutations .latest entry member run held⟩

end Store

end ReviewChecks
