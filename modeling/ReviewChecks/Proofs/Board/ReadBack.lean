import ReviewChecks.Proofs.Board.Locality
import ReviewChecks.Proofs.Json.Printing
import ReviewChecks.Proofs.Run.Encoding

/-! # Derived runs are read back as reported

A derived run is written with the fields of its description and what is derived side by side, and so is each of its
results. The names of the derived fields are none of those that a provider reports, so an object shows every reported
field as it is (`CheckRun.showsReport`), and a reader that does not know the derived fields passes them over: it reads
the run that the provider reported (`CheckRun.ofJson?_toJson`), of every run that a store holds after an answer
(`Store.runs_readBack`).
-/

namespace ReviewChecks

open Json

namespace Json

/-- What an object shows under a name, once for every time that the name stands there. -/
def under (name : String) : Json → List Json
  | .object fields => (fields.filter fun field => field.1 == some name).map Prod.snd
  | _ => []

theorem under_record (name : String) (fields : List (String × Json)) :
    (record fields).under name = (fields.filter fun field => field.1 == name).map Prod.snd := by
  rw [record, under, List.filter_map, List.map_map]
  rfl

/-- Fields of other names are not shown. -/
theorem under_present_append {name : String} {others : List (String × Option Json)}
    (absent : name ∉ others.map Prod.fst) (fields : List (String × Option Json)) :
    (record (present (fields ++ others))).under name = (record (present fields)).under name := by
  have nothing : (present others).filter (fun field => field.1 == name) = [] := by
    refine List.filter_eq_nil_iff.mpr fun field member named => absent ?_
    rw [← eq_of_beq named]
    exact (map_fst_present_sublist others).subset (List.mem_map_of_mem member)
  rw [under_record, under_record, present_append, List.filter_append, nothing, List.append_nil]

/-- An object shows nothing twice when its names are distinct. -/
theorem length_under_present {fields : List (String × Option Json)} (distinct : (fields.map Prod.fst).Nodup)
    (name : String) : ((record (present fields)).under name).length ≤ 1 := by
  have once := List.nodup_iff_count_le_one.mp (distinct.sublist (map_fst_present_sublist fields)) name
  rw [List.count, List.countP_map, List.countP_eq_length_filter] at once
  rw [under_record, List.length_map]
  exact once

/-- What is shown under the name of a field that is there. -/
theorem under_present_of_mem {fields : List (String × Option Json)} (distinct : (fields.map Prod.fst).Nodup)
    {name : String} {value : Json} (member : (name, some value) ∈ fields) :
    (record (present fields)).under name = [value] := by
  have shown : value ∈ (record (present fields)).under name := by
    rw [under_record]
    refine List.mem_map.mpr ⟨(name, value), List.mem_filter.mpr ⟨?_, beq_self_eq_true name⟩, rfl⟩
    exact List.mem_filterMap.mpr ⟨_, member, rfl⟩
  obtain ⟨only, same⟩ := List.length_eq_one_iff.mp
    (Nat.le_antisymm (length_under_present distinct name) (List.length_pos_of_mem shown))
  rw [same] at shown ⊢
  rw [List.mem_singleton.mp shown]

end Json

namespace RunResult

/-- The field of a result's id. -/
def derivedSlots (result : RunResult) : List (String × Option Json) :=
  [("internalResultId", some (.text result.id))]

theorem toJson_eq (result : RunResult) :
    result.toJson = record (present (result.result.slots ++ result.derivedSlots)) := by
  rw [present_append, ← CheckResult.fields_eq]
  rfl

theorem map_fst_nodup (result : RunResult) :
    ((result.result.slots ++ result.derivedSlots).map Prod.fst).Nodup := by
  have names : (CheckResult.fieldNames ++ ["internalResultId"]).Nodup := by decide
  rwa [← CheckResult.map_fst_slots result.result] at names

/-- A result with its id is read as the result. -/
theorem ofJson?_toJson (result : RunResult) :
    CheckResult.ofJson? result.toJson = some result.result.withoutCallbacks := by
  rw [toJson_eq]
  exact CheckResult.ofJson?_among result.result result.map_fst_nodup

end RunResult

namespace CheckRun

/-- The fields that are derived of a run. -/
def derivedSlots (run : CheckRun) : List (String × Option Json) :=
  [("internalRunId", some (.text run.id)), ("isLatestAttempt", some (.bool run.isLatestAttempt)),
    ("isSingleAttempt", some (.bool run.isSingleAttempt)),
    ("attemptDetails", some (.list AttemptDetail.toJson run.attemptDetails))]

/-- The names of all fields of a derived run. -/
def fieldNames : List String :=
  RunInfo.fieldNames ++ ["internalRunId", "isLatestAttempt", "isSingleAttempt", "attemptDetails"] ++ ["results"]

theorem fieldNames_nodup : fieldNames.Nodup := by
  decide

/-- All fields of a derived run, with the values of those that are there. -/
def slots (run : CheckRun) : List (String × Option Json) :=
  run.info.slots ++ run.derivedSlots ++ [("results", some (.list RunResult.toJson run.results))]

theorem map_fst_slots (run : CheckRun) : run.slots.map Prod.fst = fieldNames := rfl

theorem toJson_eq (run : CheckRun) : run.toJson = record (present run.slots) := by
  rw [slots, present_append, present_append, ← RunInfo.fields_eq, List.append_assoc]
  rfl

/-- What is derived can be kept unread. -/
theorem derivedSlots_retainable (run : CheckRun) : SlotsRetainable Run.keptDepth run.derivedSlots := by
  have detail : ∀ detail : AttemptDetail, isRetainable 125 detail.toJson = true := by
    intro detail
    refine isRetainable_record fun field member => ?_
    rcases List.mem_cons.mp member with rfl | member
    · cases detail.attempt with
      | none => rw [nullable, isRetainable]
      | some attempt => exact isRetainable_nat (Nat.lt_trans attempt.toNat_lt_size (by decide))
    · obtain rfl := List.mem_singleton.mp member
      exact isRetainable_text _
  exact .some (isRetainable_text _) <| .some (isRetainable_bool _) <| .some (isRetainable_bool _) <|
    .some (isRetainable_list detail) .nil

/-- A derived run is read as the run that it was derived of, without callbacks. -/
theorem ofJson?_toJson (run : CheckRun) : Run.ofJson? run.toJson = some run.toRun.withoutCallbacks := by
  have results : items CheckResult.ofJson? (list RunResult.toJson run.results) =
      some (run.results.map fun result => result.result.withoutCallbacks) :=
    items_list RunResult.ofJson?_toJson run.results
  have distinct : (run.slots.map Prod.fst).Nodup := fieldNames_nodup
  rw [toJson_eq, slots, present_append (run.info.slots ++ run.derivedSlots)]
  rw [slots] at distinct
  refine (Run.ofJson?_among run.info distinct run.derivedSlots_retainable results).trans ?_
  simp [toRun, Run.withoutCallbacks]

/-- Every run that was reported is kept by its derived run. -/
theorem map_toRun_deriveAll (runs : List Run) : (deriveAll runs).map toRun = runs := by
  have kept : ∀ run : Run, (ofRun (aggregate runs) run).toRun = run := by
    intro run
    have results : (numbered run.info.runId run.results).map (·.result) = run.results := by
      refine List.ext_getElem (by simp [numbered]) fun index _ _ => ?_
      simp [numbered]
    rw [toRun, ofRun, results]
  rw [deriveAll, List.map_map]
  exact (List.map_congr_left fun run _ => kept run).trans (List.map_id runs)

/-- Whether a derived run is written with all that was reported: under every name that a run or a result may have, it
shows what the run's description or the result alone shows there, and no name stands twice. -/
structure ShowsReport (run : CheckRun) : Prop where
  info : ∀ name ∈ RunInfo.fieldNames, run.toJson.under name = run.info.toJson.under name
  results : run.toJson.under "results" = [.list RunResult.toJson run.results]
  once : ∀ name, (run.toJson.under name).length ≤ 1
  result : ∀ result ∈ run.results, ∀ name ∈ CheckResult.fieldNames,
    result.toJson.under name = result.result.toJson.under name
  resultOnce : ∀ result ∈ run.results, ∀ name, (result.toJson.under name).length ≤ 1

theorem showsReport (run : CheckRun) : run.ShowsReport where
  info := by
    intro name known
    have distinct := fieldNames_nodup
    rw [fieldNames, List.append_assoc] at distinct
    rw [toJson_eq, slots, List.append_assoc, RunInfo.toJson, RunInfo.fields_eq]
    exact under_present_append (List.disjoint_of_nodup_append distinct known) _
  results := by
    rw [toJson_eq]
    exact under_present_of_mem (run.map_fst_slots ▸ fieldNames_nodup) (List.mem_append_right _ List.mem_cons_self)
  once := by
    intro name
    rw [toJson_eq]
    exact length_under_present (run.map_fst_slots ▸ fieldNames_nodup) name
  result := by
    intro result _ name known
    have distinct := result.map_fst_nodup
    rw [List.map_append] at distinct
    rw [RunResult.toJson_eq, CheckResult.toJson, CheckResult.fields_eq]
    exact under_present_append (List.disjoint_of_nodup_append distinct known) _
  resultOnce := by
    intro result _ name
    rw [RunResult.toJson_eq]
    exact length_under_present result.map_fst_nodup name

end CheckRun

/-- After an answer a store holds a run for every run that the provider reported, in the order of the report. Each
keeps the whole report, is written with all of it, and its text is read as the reported run without callbacks. -/
theorem Store.runs_readBack (store : Store) (context : PatchsetContext) (plugin : String) (runs : List Run)
    (actions : List Action) (links : List Link) :
    ∃ entry, (store.apply (.load plugin context runs actions links)).board.entry? context plugin = some entry ∧
      entry.runs.map CheckRun.toRun = runs ∧
      entry.runs.map (fun run => (parse? run.toJson.print).bind Run.ofJson?) =
        runs.map (fun run => some run.withoutCallbacks) ∧
      ∀ run ∈ entry.runs, run.ShowsReport := by
  have held : (store.apply (.load plugin context runs actions links)).board.entry? context plugin =
      some (((store.board.entry? context plugin).getD (.fresh plugin)).load runs actions links) := by
    rw [entry?_apply]
    exact if_pos ⟨rfl, rfl⟩
  refine ⟨_, held, CheckRun.map_toRun_deriveAll runs, ?_, fun run _ => run.showsReport⟩
  have read : ∀ run : CheckRun,
      (parse? run.toJson.print).bind Run.ofJson? = some run.toRun.withoutCallbacks := by
    intro run
    rw [parse?_print, Option.bind_some, run.ofJson?_toJson]
  conv_rhs => rw [← CheckRun.map_toRun_deriveAll runs, List.map_map]
  exact List.map_congr_left fun run _ => read run

end ReviewChecks
