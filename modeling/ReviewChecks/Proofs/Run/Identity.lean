import ReviewChecks.Proofs.Board.ReadBack
import ReviewChecks.Proofs.Run.Derivation
import ReviewChecks.Proofs.Store.Pushes
import ReviewChecks.Proofs.Text.Digits

/-! # Ids identify

An id joins its parts with dashes, and a check's name may have dashes itself. But no other part has one, so the parts
can be cut off from the right end, one after another, until the name is left (`Text.append_dash_inj`). Hence the id of a
run tells its check, change, patchset and attempt (`RunInfo.runId_eq_iff`), and the id of a result tells the id of its
run and its place there.
-/

namespace ReviewChecks

namespace Text

/-- The last dash of a text separates the part behind it. -/
theorem append_dash_inj {left right front back : String} (clean : '-' ∉ front.toList) (cleanBack : '-' ∉ back.toList)
    (same : left ++ "-" ++ front = right ++ "-" ++ back) : left = right ∧ front = back := by
  have reversed (body last : String) :
      (body ++ "-" ++ last).toList.reverse = last.toList.reverse ++ '-' :: body.toList.reverse := by
    simp
  have inside {last : String} (undashed : '-' ∉ last.toList) : ∀ c ∈ last.toList.reverse, (c != '-') = true :=
    fun c member => bne_iff_ne.mpr fun dash => undashed (dash ▸ List.mem_reverse.mp member)
  have stops (body : String) : Stops (· != '-') ('-' :: body.toList.reverse) := stops_cons rfl
  have texts := congrArg (fun text => text.toList.reverse) same
  simp only [reversed] at texts
  have lasts := congrArg (List.takeWhile (· != '-')) texts
  have bodies := congrArg (List.dropWhile (· != '-')) texts
  rw [takeWhile_append (inside clean) (stops _), takeWhile_append (inside cleanBack) (stops _)] at lasts
  rw [dropWhile_append (inside clean) (stops _), dropWhile_append (inside cleanBack) (stops _)] at bodies
  exact ⟨String.toList_inj.mp (List.reverse_inj.mp (List.cons.inj bodies).2),
    String.toList_inj.mp (List.reverse_inj.mp lasts)⟩

theorem isDigit_of_mem_ofNat {n : Nat} {c : Char} (member : c ∈ (ofNat n).toList) : c.isDigit = true := by
  rw [ofNat, String.toList_ofList] at member
  exact isDigit_of_mem_toDecimal member

theorem dash_not_mem_ofNat (n : Nat) : '-' ∉ (ofNat n).toList := by
  intro member
  cases isDigit_of_mem_ofNat member

theorem ofNat_inj {n m : Nat} : ofNat n = ofNat m ↔ n = m := by
  constructor
  · intro same
    rw [← ofDecimal_toDecimal n, ← ofDecimal_toDecimal m, String.ofList_injective same]
  · rintro rfl
    rfl

end Text

namespace RunInfo

theorem dash_not_mem_attemptLabel (attempt : Option UInt32) : '-' ∉ (attemptLabel attempt).toList := by
  cases attempt with
  | none => decide
  | some number => exact Text.dash_not_mem_ofNat _

/-- The label of no attempt is not that of a number. -/
theorem attemptLabel_inj {left right : Option UInt32} : attemptLabel left = attemptLabel right ↔ left = right := by
  have unnumbered (number : UInt32) : attemptLabel none ≠ attemptLabel (some number) := by
    intro same
    have letter : 'n' ∈ (attemptLabel none).toList := by decide
    rw [same] at letter
    cases Text.isDigit_of_mem_ofNat letter
  cases left with
  | none =>
    cases right with
    | none => simp
    | some number => simp [unnumbered number]
  | some number =>
    cases right with
    | none => simp [(unnumbered number).symm]
    | some other => simp [attemptLabel, Text.ofNat_inj, UInt32.toNat_inj]

/-- The id of a run tells its check, change, patchset and attempt, whatever the name of the check is. -/
theorem runId_eq_iff {left right : RunInfo} : left.runId = right.runId ↔ left.sameRun right = true := by
  rw [sameRun_iff]
  simp only [identity, Prod.mk.injEq]
  constructor
  · intro same
    obtain ⟨same, attempt⟩ := Text.append_dash_inj (dash_not_mem_attemptLabel _) (dash_not_mem_attemptLabel _) same
    obtain ⟨same, patchset⟩ := Text.append_dash_inj (Text.dash_not_mem_ofNat _) (Text.dash_not_mem_ofNat _) same
    obtain ⟨checkName, change⟩ := Text.append_dash_inj (Text.dash_not_mem_ofNat _) (Text.dash_not_mem_ofNat _) same
    exact ⟨UInt64.toNat_inj.mp (Text.ofNat_inj.mp change), UInt32.toNat_inj.mp (Text.ofNat_inj.mp patchset),
      attemptLabel_inj.mp attempt, checkName⟩
  · rintro ⟨change, patchset, attempt, checkName⟩
    rw [runId, runId, change, patchset, attempt, checkName]

end RunInfo

namespace CheckRun

/-- Among runs that are derived together, the id of a result tells the id of its run and its place there. -/
theorem DerivedAmong.resultId_eq_iff {infos : List RunInfo} {left right : CheckRun} (derived : left.DerivedAmong infos)
    (other : right.DerivedAmong infos) {index place : Nat} {result second : RunResult}
    (held : left.results[index]? = some result) (otherHeld : right.results[place]? = some second) :
    result.id = second.id ↔ index = place ∧ left.info.sameRun right.info = true := by
  rw [derived.result index result held, other.result place second otherHeld, derived.id, other.id]
  constructor
  · intro same
    obtain ⟨ids, places⟩ := Text.append_dash_inj (Text.dash_not_mem_ofNat _) (Text.dash_not_mem_ofNat _) same
    exact ⟨Text.ofNat_inj.mp places, RunInfo.runId_eq_iff.mp ids⟩
  · rintro ⟨rfl, same⟩
    rw [RunInfo.runId_eq_iff.mpr same]

end CheckRun

/-- The ids of two runs are the same exactly if the runs have the same change, patchset, attempt and check, whatever the
names of their checks are. After an answer a store holds the reported runs in their order, and two results at different
places have the same id exactly if they have the same place in two runs that are the same in this sense. -/
theorem Store.ids_identify (store : Store) (context : PatchsetContext) (plugin : String) (runs : List Run)
    (actions : List Action) (links : List Link) :
    (∀ left right : RunInfo, left.runId = right.runId ↔ left.sameRun right = true) ∧
    ∃ entry, (store.apply (.load plugin context runs actions links)).board.entry? context plugin = some entry ∧
      entry.runs.map CheckRun.toRun = runs ∧
      ∀ (position place : Nat) (run second : CheckRun), entry.runs[position]? = some run →
        entry.runs[place]? = some second → ∀ (index slot : Nat) (result other : RunResult),
          run.results[index]? = some result → second.results[slot]? = some other → (position, index) ≠ (place, slot) →
            (result.id = other.id ↔ index = slot ∧ position ≠ place ∧ run.info.sameRun second.info = true) := by
  have held : (store.apply (.load plugin context runs actions links)).board.entry? context plugin =
      some (((store.board.entry? context plugin).getD (.fresh plugin)).load runs actions links) := by
    rw [entry?_apply]
    exact if_pos ⟨rfl, rfl⟩
  refine ⟨fun _ _ => RunInfo.runId_eq_iff, _, held, CheckRun.map_toRun_deriveAll runs, ?_⟩
  intro position place run second at_position at_place index slot result other at_index at_slot apart
  have derived := CheckRun.derivedAmong_of_mem_deriveAll (List.mem_of_getElem? at_position)
  have otherDerived := CheckRun.derivedAmong_of_mem_deriveAll (List.mem_of_getElem? at_place)
  rw [derived.resultId_eq_iff otherDerived at_index at_slot]
  constructor
  · rintro ⟨rfl, same⟩
    exact ⟨rfl, fun here => apart (by rw [here]), same⟩
  · rintro ⟨same_slot, _, same⟩
    exact ⟨same_slot, same⟩

/-- Two runs of the check `a-1` for change 7, and one of the check `a` for change 17, all without attempt numbers. -/
def dashedRuns : List Run :=
  let found : CheckResult := { category := .error, summary := "broken" }
  let named : RunInfo := { change := 7, patchset := 2, checkName := "a-1" }
  [{ info := named, results := [found, found] }, { info := named, results := [found] },
    { info := { named with change := 17, checkName := "a" }, results := [found] }]

/-- Only the first results of the two runs of one check share their id. -/
theorem Store.ids_identify_dashed :
    ∃ entry, (({} : Store).apply (.load "ci" .latest dashedRuns [] [])).board.entry? .latest "ci" = some entry ∧
      ∃ run again other first second third fourth, entry.runs = [run, again, other] ∧ run.results = [first, second] ∧
        again.results = [third] ∧ other.results = [fourth] ∧ first.id = third.id ∧ second.id ≠ third.id ∧
        first.id ≠ fourth.id := by
  obtain ⟨entry, held, _, ids⟩ := (Store.ids_identify {} .latest "ci" dashedRuns [] []).2
  obtain rfl : (Entry.fresh "ci").load dashedRuns [] [] = entry := Option.some.inj held
  refine ⟨_, held, _, _, _, _, _, _, _, rfl, rfl, rfl, rfl, ?_, ?_, ?_⟩
  · exact (ids 0 1 _ _ rfl rfl 0 0 _ _ rfl rfl (by decide)).mpr ⟨rfl, by decide, by decide⟩
  · exact fun same => absurd ((ids 0 1 _ _ rfl rfl 1 0 _ _ rfl rfl (by decide)).mp same).1 (by decide)
  · exact fun same => absurd ((ids 0 2 _ _ rfl rfl 0 0 _ _ rfl rfl (by decide)).mp same).2.2 (by decide)

end ReviewChecks
