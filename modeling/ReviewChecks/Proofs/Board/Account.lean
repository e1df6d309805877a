import Mathlib.Data.List.DropRight
import Mathlib.Data.List.Induction
import ReviewChecks.Proofs.Board.Locality

/-! # The closed form of an entry

An entry says what has happened to it since it was created (`Created`): its fields are read off the mutations since
then, each by a rule of its own about the fetches that have ended (`Landing`). `Entry.recount` is that closed form, and
every entry of every store is that of the mutations since its creation (`Store.entry_eq_recount`).
-/

namespace ReviewChecks

/-- How a fetch ended. -/
inductive Landing where
  | load (runs : List Run) (actions : List Action) (links : List Link)
  /-- In a status without data. -/
  | fail (status : EntryStatus)

namespace Landing

/-- The status that it leaves. -/
def status : Landing → EntryStatus
  | .load _ _ _ => .ok
  | .fail status => status

/-- The links that it brings. An end without data brings none, not even no links. -/
def links? : Landing → Option (List Link)
  | .load _ _ links => some links
  | .fail _ => none

end Landing

/-- The entry once a fetch has ended. -/
def Entry.land (entry : Entry) : Landing → Entry
  | .load runs actions links => entry.load runs actions links
  | .fail status => entry.fail status

namespace Mutation

/-- The end of a fetch of a provider in a context that a mutation records. -/
def landing? (context : PatchsetContext) (plugin : String) : Mutation → Option Landing
  | .load changed within runs actions links =>
    if changed = plugin ∧ within = context then some (.load runs actions links) else none
  | .fail changed within message =>
    if changed = plugin ∧ within = context then some (.fail (.error message)) else none
  | .requireLogin changed within login =>
    if changed = plugin ∧ within = context then some (.fail (.notLoggedIn login)) else none
  | .register _ _ | .remove _ | .startLoading _ _ | .push _ _ _ | .setPin _ | .normalizePin _ => none

theorem entryAfter_of_landing {context : PatchsetContext} {plugin : String} {mutation : Mutation} {landing : Landing}
    (lands : mutation.landing? context plugin = some landing) (entry : Option Entry) :
    mutation.entryAfter context plugin entry = some ((entry.getD (.fresh plugin)).land landing) := by
  cases mutation with
  | load | fail | requireLogin =>
    obtain ⟨own, given⟩ := Option.ite_none_right_eq_some.mp lands
    obtain rfl := Option.some.inj given
    exact if_pos own
  | register | remove | startLoading | push | setPin | normalizePin => cases lands

end Mutation

/-- The run with a pushed result in place of an older one, if it holds one. -/
def CheckRun.pushed (run : CheckRun) (target : RunInfo) (updated : CheckResult) : CheckRun :=
  (updated.externalId.bind fun externalId => run.replaceResult? target externalId updated).getD run

/-- Pushing a result to an entry pushes it to each of its runs. -/
theorem Entry.push?_getD (entry : Entry) (target : RunInfo) (updated : CheckResult) :
    (entry.push? target updated).getD entry = { entry with runs := entry.runs.map (·.pushed target updated) } := by
  unfold push? CheckRun.pushed
  cases updated.externalId with
  | none => simp only [Option.bind_eq_bind, Option.bind_none, Option.getD_none, List.map_id']
  | some externalId =>
    simp only [Option.bind_eq_bind, Option.bind_some]
    split
    next => rfl
    next nothing =>
      have kept : ∀ run ∈ entry.runs, run.replaceResult? target externalId updated = none := by
        simpa using nothing
      have unchanged : ∀ run ∈ entry.runs, run = (run.replaceResult? target externalId updated).getD run :=
        fun run member => by rw [kept run member, Option.getD_none]
      exact congrArg (fun runs => { entry with runs }) ((List.map_id _).symm.trans (List.map_congr_left unchanged))

namespace Mutation

/-- Runs after a mutation that may push a result to them. -/
def pushedRuns (plugin : String) (runs : List CheckRun) : Mutation → List CheckRun
  | .push changed target updated => if changed = plugin then runs.map (·.pushed target updated) else runs
  | _ => runs

theorem pushedRuns_nil (plugin : String) (mutation : Mutation) : mutation.pushedRuns plugin [] = [] := by
  cases mutation <;> simp only [pushedRuns, List.map_nil, ite_self]

/-- What is written where there is no entry is written to a fresh one. -/
theorem entryAfter_none_of_target? {context : PatchsetContext} {plugin : String} {mutation : Mutation}
    (writes : mutation.target? = some (plugin, context)) :
    mutation.entryAfter context plugin none = mutation.entryAfter context plugin (some (.fresh plugin)) := by
  cases mutation with
  | register | startLoading | load | fail | requireLogin =>
    obtain ⟨rfl, rfl⟩ := Prod.mk.inj (Option.some.inj writes)
    exact (if_pos ⟨rfl, rfl⟩).trans (if_pos ⟨rfl, rfl⟩).symm
  | remove | push | setPin | normalizePin => cases writes

theorem target?_of_entryAfter_none {context : PatchsetContext} {plugin : String} {mutation : Mutation} {entry : Entry}
    (written : mutation.entryAfter context plugin none = some entry) : mutation.target? = some (plugin, context) := by
  cases mutation with
  | register | startLoading | load | fail | requireLogin =>
    obtain ⟨⟨rfl, rfl⟩, _⟩ := Option.ite_none_right_eq_some.mp written
    rfl
  | remove | push =>
    simp only [entryAfter, Option.map_none, ite_self] at written
    cases written
  | setPin | normalizePin => cases written

/-- A mutation that neither ends a fetch nor replaces or removes the entry starts loading or pushes a result. -/
theorem entryAfter_of_landing?_eq_none {context : PatchsetContext} {plugin : String} {mutation : Mutation}
    (lands : mutation.landing? context plugin = none) (registers : mutation ≠ .register plugin context)
    (removes : mutation ≠ .remove plugin) (entry : Entry) :
    mutation.entryAfter context plugin (some entry) =
      some { entry with
        loading := entry.loading || decide (mutation = .startLoading plugin context)
        runs := mutation.pushedRuns plugin entry.runs } := by
  cases mutation with
  | register changed within =>
    have other : ¬ (changed = plugin ∧ within = context) := by
      rintro ⟨rfl, rfl⟩
      exact registers rfl
    simp only [entryAfter, if_neg other, pushedRuns, reduceCtorEq, decide_false, Bool.or_false]
  | remove changed =>
    have other : changed ≠ plugin := by
      rintro rfl
      exact removes rfl
    simp only [entryAfter, if_neg other, pushedRuns, reduceCtorEq, decide_false, Bool.or_false]
  | startLoading changed within =>
    simp only [entryAfter, pushedRuns, startLoading.injEq]
    split
    next own => simp only [own, and_self, decide_true, Bool.or_true]; rfl
    next other => simp only [other, decide_false, Bool.or_false]
  | load changed within | fail changed within | requireLogin changed within =>
    have other : ¬ (changed = plugin ∧ within = context) := fun own =>
      Option.some_ne_none _ ((if_pos own).symm.trans lands)
    simp only [entryAfter, if_neg other, pushedRuns, reduceCtorEq, decide_false, Bool.or_false]
  | push changed target updated =>
    simp only [entryAfter, pushedRuns, reduceCtorEq, decide_false, Bool.or_false]
    split
    next => rw [Option.map_some, Entry.push?_getD]
    next => rfl
  | setPin | normalizePin =>
    simp only [entryAfter, pushedRuns, reduceCtorEq, decide_false, Bool.or_false]

end Mutation

namespace Entry

/-- The end of the last fetch among some mutations. -/
def lastLanding? (context : PatchsetContext) (plugin : String) (since : List Mutation) : Option Landing :=
  (since.filterMap (·.landing? context plugin)).getLast?

/-- The mutations after the end of the last fetch, all of them when none has ended. -/
def sinceLanding (context : PatchsetContext) (plugin : String) (since : List Mutation) : List Mutation :=
  since.rtakeWhile fun mutation => (mutation.landing? context plugin).isNone

/-- The entry of a provider in a context, read off the mutations since it was created. -/
def recount (context : PatchsetContext) (plugin : String) (since : List Mutation) : Entry where
  plugin := plugin
  loading := .startLoading plugin context ∈ sinceLanding context plugin since
  firstTimeLoad := (lastLanding? context plugin since).isNone
  status := ((lastLanding? context plugin since).map Landing.status).getD .ok
  runs :=
    match lastLanding? context plugin since with
    | some (.load runs _ _) =>
      (sinceLanding context plugin since).foldl (Mutation.pushedRuns plugin) (CheckRun.deriveAll runs)
    | _ => []
  actions :=
    match lastLanding? context plugin since with
    | some (.load _ actions _) => actions
    | _ => []
  links := ((since.filterMap (·.landing? context plugin)).filterMap Landing.links?).getLast?.getD []

variable {context : PatchsetContext} {plugin : String}

/-- The end of a fetch sets every field; without data the links stay. -/
theorem recount_concat_of_landing {mutation : Mutation} {landing : Landing}
    (lands : mutation.landing? context plugin = some landing) (since : List Mutation) :
    recount context plugin (since ++ [mutation]) = (recount context plugin since).land landing := by
  have landings : (since ++ [mutation]).filterMap (·.landing? context plugin) =
      since.filterMap (·.landing? context plugin) ++ [landing] := by
    rw [List.filterMap_append, List.filterMap_cons_some lands, List.filterMap_nil]
  have nothing : sinceLanding context plugin (since ++ [mutation]) = [] :=
    List.rtakeWhile_concat_neg _ _ _ (by rw [lands, Option.isNone_some]; exact Bool.false_ne_true)
  simp only [recount, lastLanding?, landings, List.getLast?_concat, nothing, List.filterMap_append]
  cases landing with
  | load runs actions links =>
    simp only [land, load, List.filterMap_cons, Landing.links?, List.filterMap_nil, List.getLast?_concat,
      List.not_mem_nil, decide_false, List.foldl_nil, Option.isNone_some, Option.map_some, Option.getD_some,
      Landing.status]
  | fail status =>
    simp only [land, fail, List.filterMap_cons, Landing.links?, List.filterMap_nil, List.append_nil,
      List.not_mem_nil, decide_false, Option.isNone_some, Option.map_some, Option.getD_some, Landing.status]

/-- Between the ends of fetches only the loading mark and the runs change. -/
theorem recount_concat_of_landing?_eq_none {mutation : Mutation} (lands : mutation.landing? context plugin = none)
    (since : List Mutation) :
    recount context plugin (since ++ [mutation]) =
      { recount context plugin since with
        loading := (recount context plugin since).loading || decide (mutation = .startLoading plugin context)
        runs := mutation.pushedRuns plugin (recount context plugin since).runs } := by
  have landings : (since ++ [mutation]).filterMap (·.landing? context plugin) =
      since.filterMap (·.landing? context plugin) := by
    rw [List.filterMap_append, List.filterMap_cons_none lands, List.filterMap_nil, List.append_nil]
  have later : sinceLanding context plugin (since ++ [mutation]) = sinceLanding context plugin since ++ [mutation] :=
    List.rtakeWhile_concat_pos _ _ _ (by rw [lands, Option.isNone_none])
  have loading : decide (Mutation.startLoading plugin context ∈ sinceLanding context plugin since ++ [mutation]) =
      (decide (.startLoading plugin context ∈ sinceLanding context plugin since) ||
        decide (mutation = .startLoading plugin context)) := by
    rw [← Bool.decide_or]
    exact decide_eq_decide.mpr (by rw [List.mem_append, List.mem_singleton, eq_comm (a := mutation)])
  simp only [recount, lastLanding?, landings, later, loading, List.foldl_concat]
  congr 1
  split
  next => rfl
  next => exact (mutation.pushedRuns_nil plugin).symm

theorem recount_nil : recount context plugin [] = .fresh plugin := rfl

/-- Unless it registers or removes the entry, a mutation makes of a recounted one the one recounted with it. -/
theorem entryAfter_recount (since : List Mutation) {mutation : Mutation}
    (registers : mutation ≠ .register plugin context) (removes : mutation ≠ .remove plugin) :
    mutation.entryAfter context plugin (some (recount context plugin since)) =
      some (recount context plugin (since ++ [mutation])) := by
  cases lands : mutation.landing? context plugin with
  | some landing =>
    rw [recount_concat_of_landing lands, Mutation.entryAfter_of_landing lands, Option.getD_some]
  | none =>
    rw [recount_concat_of_landing?_eq_none lands, Mutation.entryAfter_of_landing?_eq_none lands registers removes]

end Entry

/-- The entry of a provider in a context is created by a mutation, by registering it or by writing to it when there is
none, and neither registered again nor removed since. -/
structure Created (context : PatchsetContext) (plugin : String) (before : List Mutation) (creation : Mutation)
    (after : List Mutation) : Prop where
  writes : creation.target? = some (plugin, context)
  anew : creation = .register plugin context ∨ (Store.applyAll {} before).board.entry? context plugin = none
  kept : ∀ later ∈ after, later ≠ .register plugin context ∧ later ≠ .remove plugin

namespace Created

variable {context : PatchsetContext} {plugin : String} {before after : List Mutation} {creation : Mutation}

theorem concat (created : Created context plugin before creation after) {mutation : Mutation}
    (registers : mutation ≠ .register plugin context) (removes : mutation ≠ .remove plugin) :
    Created context plugin before creation (after ++ [mutation]) where
  writes := created.writes
  anew := created.anew
  kept later member := by
    rcases List.mem_append.mp member with earlier | last
    · exact created.kept later earlier
    · obtain rfl := List.mem_singleton.mp last
      exact ⟨registers, removes⟩

/-- What creates an entry leaves that one thing to recount. -/
theorem entryAfter_creation (created : Created context plugin before creation after) :
    creation.entryAfter context plugin ((Store.applyAll {} before).board.entry? context plugin) =
      some (Entry.recount context plugin [creation]) := by
  obtain ⟨writes, anew, _⟩ := created
  by_cases registers : creation = .register plugin context
  · subst registers
    refine (if_pos ⟨rfl, rfl⟩).trans (congrArg some ?_)
    rw [← List.nil_append [Mutation.register plugin context], Entry.recount_concat_of_landing?_eq_none rfl]
    simp only [Entry.recount_nil, Mutation.pushedRuns, reduceCtorEq, decide_false, Bool.or_false]
  · have removes : creation ≠ .remove plugin := by
      rintro rfl
      cases writes
    rw [anew.resolve_left registers, Mutation.entryAfter_none_of_target? writes, ← Entry.recount_nil,
      Entry.entryAfter_recount [] registers removes, List.nil_append]

/-- An entry is the closed form of what has happened since it was created. -/
theorem entry?_eq (created : Created context plugin before creation after) :
    (Store.applyAll {} (before ++ creation :: after)).board.entry? context plugin =
      some (Entry.recount context plugin (creation :: after)) := by
  rw [Store.applyAll, List.foldl_append, List.foldl_cons]
  change ((Store.applyAll ((Store.applyAll {} before).apply creation) after).board.entry? context plugin) = _
  rw [Store.entry?_applyAll, Store.entry?_apply, created.entryAfter_creation]
  have kept := created.kept
  clear created
  induction after using List.reverseRecOn with
  | nil => rfl
  | append_singleton after mutation ih =>
    obtain ⟨registers, removes⟩ := kept mutation (by simp)
    rw [List.foldl_concat, ih fun later member => kept later (List.mem_append_left _ member)]
    exact Entry.entryAfter_recount (creation :: after) registers removes

end Created

/-- What there is an entry of has been created. -/
theorem exists_created {context : PatchsetContext} {plugin : String} {history : List Mutation} {entry : Entry}
    (found : (Store.applyAll {} history).board.entry? context plugin = some entry) :
    ∃ before creation after, history = before ++ creation :: after ∧ Created context plugin before creation after := by
  induction history using List.reverseRecOn generalizing entry with
  | nil => cases context <;> cases found
  | append_singleton history mutation ih =>
    have written : mutation.entryAfter context plugin ((Store.applyAll {} history).board.entry? context plugin) =
        some entry := by
      rw [← Store.entry?_apply, ← found, Store.applyAll, Store.applyAll, List.foldl_concat]
    by_cases removes : mutation = .remove plugin
    · subst removes
      cases (if_pos rfl).symm.trans written
    by_cases registers : mutation = .register plugin context
    · subst registers
      exact ⟨history, _, [], rfl, rfl, .inl rfl, fun _ member => nomatch member⟩
    cases held : (Store.applyAll {} history).board.entry? context plugin with
    | some earlier =>
      obtain ⟨before, creation, after, rfl, created⟩ := ih held
      exact ⟨before, creation, after ++ [mutation], List.append_assoc .., created.concat registers removes⟩
    | none =>
      refine ⟨history, mutation, [], rfl, ?_, .inr held, fun _ member => nomatch member⟩
      rw [held] at written
      exact Mutation.target?_of_entryAfter_none written

namespace Store

/-- Whatever mutations led to an entry, it has been created at some point, and its fields are the closed form of the
mutations since then. It never has an error and a login at once. -/
theorem entry_eq_recount (history : List Mutation) (context : PatchsetContext) (plugin : String) (entry : Entry)
    (found : (applyAll {} history).board.entry? context plugin = some entry) :
    (∃ before creation after, history = before ++ creation :: after ∧
        Created context plugin before creation after) ∧
      (∀ before creation after, history = before ++ creation :: after → Created context plugin before creation after →
        entry = Entry.recount context plugin (creation :: after)) ∧
      (entry.errorMessage? = none ∨ entry.login? = none) := by
  refine ⟨exists_created found, ?_, ?_⟩
  · rintro before creation after rfl created
    exact Option.some.inj (found.symm.trans created.entry?_eq)
  · unfold Entry.errorMessage? Entry.login?
    cases entry.status with
    | ok | error => exact .inr rfl
    | notLoggedIn => exact .inl rfl

/-- The run that a provider reports. -/
def reportedRun : RunInfo where
  change := 42
  patchset := 1
  attempt := some 1
  checkName := "build"

/-- A provider is removed while it has data. A fetch of it that still fails brings its entry back, the next one brings a
run with a finding, of which a newer version is pushed, and another fetch is started. -/
def returningMutations : List Mutation :=
  [.register "ci" .latest, .load "ci" .latest [] [] [⟨"https://ci/old", none, false, none⟩], .remove "ci",
    .fail "ci" .latest "Timed out",
    .load "ci" .latest [⟨reportedRun, [{ externalId := some "lint", category := .error, summary := "Tabs" }]⟩]
      [{ name := "Rerun" }] [⟨"https://ci/new", none, false, none⟩],
    .push "ci" reportedRun { externalId := some "lint", category := .success, summary := "No tabs" },
    .startLoading "ci" .latest]

/-- The entry that came back, with the newer version of the finding. The icon of the attempt is that of the report. -/
def returnedEntry : Entry where
  plugin := "ci"
  loading := true
  firstTimeLoad := false
  runs := [{
    info := reportedRun
    id := "build-42-1-1"
    isLatestAttempt := true
    isSingleAttempt := true
    attemptDetails := [⟨some 1, .error⟩]
    results := [⟨{ externalId := some "lint", category := .success, summary := "No tabs" }, "build-42-1-1-0"⟩] }]
  actions := [{ name := "Rerun" }]
  links := [⟨"https://ci/new", none, false, none⟩]

/-- The entry that came back is recounted from the write that brought it back. -/
theorem entry_eq_recount_returning :
    (applyAll {} returningMutations).board.entry? .latest "ci" = some returnedEntry ∧
      returnedEntry = Entry.recount .latest "ci" (returningMutations.drop 3) := by
  have found : (applyAll {} returningMutations).board.entry? .latest "ci" = some returnedEntry := by decide
  exact ⟨found, (entry_eq_recount returningMutations .latest "ci" returnedEntry found).2.1 (returningMutations.take 3)
    _ (returningMutations.drop 4) rfl ⟨rfl, .inr (by decide), by decide⟩⟩

end Store

end ReviewChecks
