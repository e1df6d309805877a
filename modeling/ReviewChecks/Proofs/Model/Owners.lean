import ReviewChecks.Proofs.Model.Enrolment
import ReviewChecks.Proofs.Table

/-! # Who owns a check

A check belongs to the provider that was registered last among those whose entry for the latest patchset holds a run of
it (`Model.Owns`). The table of owners is filled in the order of the entries, so that it gives the provider of the last
entry that holds the check (`Entries.find?_checkOwners`); and since the entries stand in the order of the registrations,
that provider is the owner (`Model.find?_checkOwners_iff`). So a reload for a check reaches its owner and nobody else
(`Model.reloads_owners`).
-/

namespace ReviewChecks

/-- An entry holds a run of a check. -/
def Entry.Holds (checkName : String) (entry : Entry) : Prop :=
  ∃ run ∈ entry.runs, run.info.checkName = checkName

instance (checkName : String) (entry : Entry) : Decidable (entry.Holds checkName) :=
  inferInstanceAs (Decidable (∃ run ∈ entry.runs, run.info.checkName = checkName))

namespace Entries

private theorem lookup_map_owner (names : List String) (owner name : String) :
    (names.map (·, owner)).lookup name = if name ∈ names then some owner else none := by
  induction names with
  | nil => rfl
  | cons head rest ih =>
    rw [List.map_cons, List.lookup_cons, ih]
    by_cases own : name = head
    · simp [own]
    · simp [own, beq_eq_false_iff_ne.mpr own]

/-- An entry makes its provider the owner of the checks that it holds. -/
theorem lookup_owned (checkName : String) (entry : Entry) :
    (entry.runs.map fun run => (run.info.checkName, entry.plugin)).reverse.lookup checkName =
      if entry.Holds checkName then some entry.plugin else none := by
  have names : (entry.runs.map fun run => (run.info.checkName, entry.plugin)).reverse =
      (entry.runs.map (·.info.checkName)).reverse.map (·, entry.plugin) := by
    rw [← List.map_reverse, ← List.map_reverse, List.map_map]
    rfl
  rw [names, lookup_map_owner]
  exact if_congr (by simp only [List.mem_reverse, List.mem_map, Entry.Holds]) rfl rfl

/-- A check belongs to the provider of the last entry that holds it. -/
theorem find?_checkOwners (entries : Entries) (checkName : String) :
    entries.checkOwners.find? checkName = (entries.reverse.find? (·.Holds checkName)).map (·.plugin) := by
  rw [checkOwners, Table.find?_ofList_eq, List.reverse_flatMap]
  generalize entries.reverse = latestFirst
  induction latestFirst with
  | nil => rfl
  | cons entry rest ih =>
    rw [List.flatMap_cons, List.lookup_append, ih, List.find?_cons, Function.comp_apply, lookup_owned]
    by_cases held : entry.Holds checkName
    · simp [held]
    · simp [held]

/-- The checks that belong to somebody are those that some run is of. -/
theorem mem_names_checkOwners {entries : Entries} {checkName : String} :
    checkName ∈ entries.checkOwners.names ↔ ∃ run ∈ entries.allRuns, run.info.checkName = checkName := by
  rw [Table.mem_names_iff, ← Option.isSome_iff_exists, find?_checkOwners, Option.isSome_map, List.find?_isSome]
  simp only [List.mem_reverse, decide_eq_true_eq, allRuns, List.mem_flatMap]
  constructor
  · rintro ⟨entry, member, run, held, named⟩
    exact ⟨run, ⟨entry, member, held⟩, named⟩
  · rintro ⟨run, ⟨entry, member, held⟩, named⟩
    exact ⟨entry, member, run, held, named⟩

end Entries

namespace Model

/-- A provider holds a run of a check for the latest patchset. -/
def HoldsCheck (model : Model) (checkName plugin : String) : Prop :=
  ∃ entry, model.store.board.entry? .latest plugin = some entry ∧ entry.Holds checkName

/-- A registration owns a check: of those whose providers hold it, it was made last. -/
structure Owns (model : Model) (checkName : String) (owner : Registration) : Prop where
  registered : owner ∈ model.registry
  holds : model.HoldsCheck checkName owner.plugin
  last : ∀ other ∈ model.registry, model.HoldsCheck checkName other.plugin → other.number ≤ owner.number

/-- Reloads of certain registrations, and of no others, have been requested, and all else is as it was. -/
structure Reloads (model after : Model) (asked : Registration → Prop) : Prop where
  rest : after = { model with registry := after.registry }
  registry : List.Forall₂ (fun registration next =>
    (asked registration → next = { registration with reloads := registration.reloads + 1 }) ∧
      (¬ asked registration → next = registration)) model.registry after.registry

theorem reloads_reloadWhere {model : Model} {condition : Registration → Bool} {asked : Registration → Prop}
    (same : ∀ registration ∈ model.registry, condition registration = true ↔ asked registration) :
    model.Reloads (model.reloadWhere condition) asked := by
  refine ⟨rfl, ?_⟩
  rw [reloadWhere, List.forall₂_map_right_iff, List.forall₂_same]
  intro registration member
  rw [← same registration member]
  exact ⟨fun asked => if_pos asked, fun spared => if_neg spared⟩

namespace MirrorsRegistry

variable {model : Model} {checkName : String}

/-- Two registrations of one provider are the same. -/
theorem eq_of_plugin (mirrors : model.MirrorsRegistry) {first second : Registration} (held : first ∈ model.registry)
    (also : second ∈ model.registry) (same : first.plugin = second.plugin) : first = second :=
  List.inj_on_of_nodup_map mirrors.nodup held also same

/-- Two registrations of one number are the same. -/
theorem eq_of_number (mirrors : model.MirrorsRegistry) {first second : Registration} (held : first ∈ model.registry)
    (also : second ∈ model.registry) (same : first.number = second.number) : first = second := by
  have nodup : (model.registry.map (·.number)).Nodup := (List.pairwise_map.mpr mirrors.ordered).imp Nat.ne_of_lt
  exact List.inj_on_of_nodup_map nodup held also same

/-- A check has one owner at most. -/
theorem owns_unique (mirrors : model.MirrorsRegistry) {first second : Registration} (owns : model.Owns checkName first)
    (also : model.Owns checkName second) : first = second :=
  mirrors.eq_of_number owns.registered also.registered
    (Nat.le_antisymm (also.last first owns.registered owns.holds) (owns.last second also.registered also.holds))

/-- The entry that a provider has for the latest patchset. -/
theorem entry?_eq_some_iff (mirrors : model.MirrorsRegistry) {plugin : String} {entry : Entry} :
    model.store.board.entry? .latest plugin = some entry ↔
      entry ∈ model.store.board.latest.entries ∧ entry.plugin = plugin := by
  refine Entries.get?_eq_some_iff ?_
  rw [mirrors.names .latest]
  exact mirrors.nodup

/-- The provider of the last entry that holds a check owns it. -/
theorem exists_owns (mirrors : model.MirrorsRegistry) {before after : Entries} {entry : Entry}
    (split : model.store.board.latest.entries = before ++ entry :: after) (holds : entry.Holds checkName)
    (last : ∀ later ∈ after, ¬ later.Holds checkName) :
    ∃ owner, model.Owns checkName owner ∧ owner.plugin = entry.plugin := by
  have names : model.registry.map (·.plugin) = before.names ++ entry.plugin :: after.names := by
    have names := mirrors.names .latest
    change model.store.board.latest.entries.names = _ at names
    rw [← names, split, Entries.names, List.map_append, List.map_cons]
    rfl
  obtain ⟨earlier, rest, registry, _, restNames⟩ := List.map_eq_append_iff.mp names
  obtain ⟨owner, later, rfl, own, laterNames⟩ := List.map_eq_cons_iff.mp restNames
  have registered : owner ∈ model.registry := by simp [registry]
  have holdsCheck : model.HoldsCheck checkName owner.plugin :=
    ⟨entry, mirrors.entry?_eq_some_iff.mpr ⟨by simp [split], own.symm⟩, holds⟩
  refine ⟨owner, ⟨registered, holdsCheck, fun other member also => ?_⟩, own⟩
  have ordered := mirrors.ordered
  rw [registry] at member ordered
  rcases List.mem_append.mp member with older | rest
  · exact Nat.le_of_lt ((List.pairwise_append.mp ordered).2.2 other older owner (List.mem_cons_self ..))
  · rcases List.mem_cons.mp rest with rfl | newer
    · exact Nat.le_refl _
    · -- who was registered later has one of the entries after the last one that holds the check
      have named : other.plugin ∈ after.names := laterNames ▸ List.mem_map_of_mem newer
      obtain ⟨later, place, same⟩ := List.mem_map.mp named
      obtain ⟨held, found, holdsToo⟩ := also
      have own : model.store.board.entry? .latest other.plugin = some later :=
        mirrors.entry?_eq_some_iff.mpr ⟨by simp [split, place], same⟩
      obtain rfl := Option.some.inj (own.symm.trans found)
      exact absurd holdsToo (last later place)

/-- The provider that the table of owners names has a registration that owns the check. -/
theorem owns_of_find?_checkOwners (mirrors : model.MirrorsRegistry) {plugin : String}
    (found : model.store.board.latest.entries.checkOwners.find? checkName = some plugin) :
    ∃ owner, model.Owns checkName owner ∧ owner.plugin = plugin := by
  rw [Entries.find?_checkOwners, Option.map_eq_some_iff] at found
  obtain ⟨entry, first, rfl⟩ := found
  obtain ⟨holds, after, before, split, last⟩ := List.find?_eq_some_iff_append.mp first
  have entries : model.store.board.latest.entries = before.reverse ++ entry :: after.reverse := by
    rw [← List.reverse_reverse model.store.board.latest.entries, split]
    simp
  exact mirrors.exists_owns entries (by simpa using holds) fun later member => by
    simpa using last later (List.mem_reverse.mp member)

/-- A check that somebody holds has an owner, whose provider is in the table of owners. -/
theorem exists_owns_of_holdsCheck (mirrors : model.MirrorsRegistry) {plugin : String}
    (holds : model.HoldsCheck checkName plugin) :
    ∃ owner, model.Owns checkName owner ∧
      model.store.board.latest.entries.checkOwners.find? checkName = some owner.plugin := by
  obtain ⟨entry, found, run, held, named⟩ := holds
  have member : run ∈ model.store.board.latest.entries.allRuns :=
    List.mem_flatMap.mpr ⟨entry, (mirrors.entry?_eq_some_iff.mp found).1, held⟩
  obtain ⟨name, listed⟩ := Table.mem_names_iff.mp (Entries.mem_names_checkOwners.mpr ⟨run, member, named⟩)
  obtain ⟨owner, owns, rfl⟩ := mirrors.owns_of_find?_checkOwners listed
  exact ⟨owner, owns, listed⟩

theorem find?_checkOwners_of_owns (mirrors : model.MirrorsRegistry) {owner : Registration}
    (owns : model.Owns checkName owner) :
    model.store.board.latest.entries.checkOwners.find? checkName = some owner.plugin := by
  obtain ⟨other, also, listed⟩ := mirrors.exists_owns_of_holdsCheck owns.holds
  rwa [mirrors.owns_unique owns also]

end MirrorsRegistry

/-- Reloads reach those who own checks. -/
structure ReloadsOwners (model : Model) : Prop where
  /-- A reload for a check that somebody owns is one of the owner. -/
  owned : ∀ checkName owner, model.Owns checkName owner →
    model.Reloads (model.reloadForCheck (some checkName)) (· = owner)
  /-- Of those who hold a check there is one owner. -/
  unique : ∀ checkName, (∃ registration ∈ model.registry, model.HoldsCheck checkName registration.plugin) →
    ∃! owner, model.Owns checkName owner
  /-- A reload for a check that nobody holds does nothing. -/
  unowned : ∀ checkName, (∀ registration ∈ model.registry, ¬ model.HoldsCheck checkName registration.plugin) →
    model.reloadForCheck (some checkName) = model
  /-- The table of owners has the checks of the runs for the latest patchset. -/
  checks : ∀ checkName, checkName ∈ model.store.board.latest.entries.checkOwners.names ↔
    ∃ run ∈ model.store.board.latest.entries.allRuns, run.info.checkName = checkName
  /-- The table of owners has the provider of each owner. -/
  owners : ∀ checkName plugin, model.store.board.latest.entries.checkOwners.find? checkName = some plugin ↔
    ∃ owner, model.Owns checkName owner ∧ owner.plugin = plugin
  /-- A reload without a check is one of everybody. -/
  everybody : model.Reloads (model.reloadForCheck none) fun _ => True
  /-- Neither the pin nor the entries for the pinned patchset have a say in it. -/
  latestOnly : ∀ pin selected checkName,
    let board := { model.store.board with pin, selected }
    ({ model with store := { model.store with board } }.reloadForCheck checkName).registry =
      (model.reloadForCheck checkName).registry

theorem MirrorsRegistry.reloadsOwners {model : Model} (mirrors : model.MirrorsRegistry) : model.ReloadsOwners where
  owned checkName owner owns := by
    rw [reloadForCheck, mirrors.find?_checkOwners_of_owns owns]
    refine reloads_reloadWhere fun registration member => ?_
    rw [decide_eq_true_iff]
    exact ⟨fun same => mirrors.eq_of_plugin member owns.registered same, fun same => congrArg _ same⟩
  unique checkName holds := by
    obtain ⟨_, _, holds⟩ := holds
    obtain ⟨owner, owns, _⟩ := mirrors.exists_owns_of_holdsCheck holds
    exact ⟨owner, owns, fun other also => mirrors.owns_unique also owns⟩
  unowned checkName nobody := by
    have unlisted : model.store.board.latest.entries.checkOwners.find? checkName = none := by
      refine Option.eq_none_iff_forall_not_mem.mpr fun plugin listed => ?_
      obtain ⟨owner, owns, _⟩ := mirrors.owns_of_find?_checkOwners listed
      exact nobody owner owns.registered owns.holds
    rw [reloadForCheck, unlisted]
  checks checkName := Entries.mem_names_checkOwners
  owners checkName plugin := by
    refine ⟨mirrors.owns_of_find?_checkOwners, ?_⟩
    rintro ⟨owner, owns, rfl⟩
    exact mirrors.find?_checkOwners_of_owns owns
  everybody := reloads_reloadWhere fun _ _ => iff_of_true rfl trivial
  latestOnly pin selected checkName := by
    cases checkName with
    | none => rfl
    | some checkName =>
      simp only [reloadForCheck]
      split <;> rfl

/-- As long as a model has not been shut down, a reload for a check reaches the provider that was registered last among
those whose entry for the latest patchset holds a run of it, and nobody else; and the table of owners says who that
is. -/
theorem reloads_owners (host : Host) (config : ModelConfig) (moves : List Move)
    (running : ((create host config).run moves).life = .running) : ((create host config).run moves).ReloadsOwners :=
  ((enrolment_run host config moves).mirrorsRegistry (mirrors_run host config moves running)).reloadsOwners

/-- A run of a check. -/
def runOf (checkName : String) : Run where
  info := { change := 42, patchset := 1, checkName }

/-- Two providers report a build for the latest patchset. For the pinned one, the second reports a check of its own. -/
def sharedMoves : List Move :=
  let reports : Provider := fun _ _ _ => .now (.response (.ok [runOf "build"] [] []))
  let reportsToo : Provider := fun context _ _ => .now (.response (.ok
    [match context with | .latest => runOf "build" | .selected => runOf "lint"] [] []))
  [.host (.loadChange ((ChangeInfo.ofNumber 42 "tools").addRevision "first" 1 "")),
    .operation (.register "ci" reports none), .operation (.register "linter" reportsToo none),
    .task (.pipeline 2), .task (.pipeline 2), .task (.pipeline 0), .task (.pipeline 0), .task (.pipeline 3),
    .task (.pipeline 3), .operation (.setPatchset (some 2))]

/-- The build belongs to the provider that was registered last, though the other one has reported last. The check that
is only there for the pinned patchset belongs to nobody. -/
theorem reloads_owners_shared :
    let model := (create {} {}).run sharedMoves
    (∃ owner, owner.plugin = "linter" ∧ model.Owns "build" owner ∧
      model.Reloads (model.reloadForCheck (some "build")) (· = owner)) ∧
    (∃ entry, model.store.board.entry? .selected "linter" = some entry ∧ entry.Holds "lint") ∧
    model.reloadForCheck (some "lint") = model := by
  intro model
  have reloads : model.ReloadsOwners := reloads_owners {} {} sharedMoves (by decide)
  refine ⟨?_, ?_, ?_⟩
  · obtain ⟨owner, owns, named⟩ := (reloads.owners "build" "linter").mp (by decide)
    exact ⟨owner, named, owns, reloads.owned "build" owner owns⟩
  · have holds : (model.store.board.entry? .selected "linter").any (·.Holds "lint") = true := by decide
    obtain ⟨entry, found, held⟩ := (Option.any_eq_true ..).mp holds
    exact ⟨entry, found, of_decide_eq_true held⟩
  · refine reloads.unowned "lint" fun registration member holds => ?_
    obtain ⟨owner, owns, _⟩ := reloads.unique "lint" ⟨registration, member, holds⟩
    have listed := (reloads.owners "lint" owner.plugin).mpr ⟨owner, owns, rfl⟩
    have unlisted : model.store.board.latest.entries.checkOwners.find? "lint" = none := by decide
    exact nomatch unlisted.symm.trans listed

end Model

end ReviewChecks
