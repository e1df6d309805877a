import ReviewChecks.Model
import ReviewChecks.Proofs.Store.Pushes
import ReviewChecks.Proofs.Store.Versions

/-! # What a push replaces

A push is accepted if a context holds what it is about, and then it replaces the first result with its external id in
each run that it is about, in each context that has such a run, and nothing else. Both levels at which a push takes the
first of several, the entries of a context and the results of a run, are told by one relation on lists (`ChangesFirst`),
which the search on both levels is equivalent to (`Edit.first?_eq_some_iff`). The level between them, the runs of an
entry, has no first one: every run is compared with what stands in its place afterwards.
-/

namespace ReviewChecks

/-- One list comes from another by a change of the first value that fits, and all others stay where they are. -/
def ChangesFirst {α : Type} (fits : α → Prop) (change : α → α → Prop) (old new : List α) : Prop :=
  ∃ before held rest next, old = before ++ held :: rest ∧ (∀ other ∈ before, ¬ fits other) ∧ fits held ∧
    change held next ∧ new = before ++ next :: rest

namespace ChangesFirst

variable {α : Type} {fits : α → Prop} {change : α → α → Prop}

theorem head {held next : α} (rest : List α) (fit : fits held) (changed : change held next) :
    ChangesFirst fits change (held :: rest) (next :: rest) :=
  ⟨[], held, rest, next, rfl, fun _ absent => absurd absent List.not_mem_nil, fit, changed, rfl⟩

theorem cons {head : α} {old new : List α} (other : ¬ fits head) (changes : ChangesFirst fits change old new) :
    ChangesFirst fits change (head :: old) (head :: new) := by
  obtain ⟨before, held, rest, next, rfl, others, fit, changed, rfl⟩ := changes
  exact ⟨head :: before, held, rest, next, rfl, List.forall_mem_cons.mpr ⟨other, others⟩, fit, changed, rfl⟩

theorem imp {changeToo : α → α → Prop} {old new : List α} (weaker : ∀ held next, change held next → changeToo held next)
    (changes : ChangesFirst fits change old new) : ChangesFirst fits changeToo old new := by
  obtain ⟨before, held, rest, next, old, others, fit, changed, new⟩ := changes
  exact ⟨before, held, rest, next, old, others, fit, weaker held next changed, new⟩

end ChangesFirst

namespace Edit

variable {α : Type} {fits : α → Prop} [DecidablePred fits] {edit : Edit α}

/-- An edit of the first place that fits changes the first value that fits, and finds nothing only if there is none or
the edit finds nothing in it. -/
theorem first?_eq_some_iff {old new : List α} :
    first? fits edit old = some new ↔ ChangesFirst fits (fun held next => edit held = some next) old new := by
  constructor
  · intro edited
    induction old generalizing new with
    | nil => cases edited
    | cons held rest ih =>
      rw [first?] at edited
      split at edited
      next fit =>
        obtain ⟨next, changed, rfl⟩ := Option.map_eq_some_iff.mp edited
        exact ChangesFirst.head rest fit changed
      next other =>
        obtain ⟨later, editedRest, rfl⟩ := Option.map_eq_some_iff.mp edited
        exact (ih editedRest).cons other
  · rintro ⟨before, held, rest, next, rfl, others, fit, changed, rfl⟩
    induction before with
    | nil => rw [List.nil_append, first?, if_pos fit, changed]; rfl
    | cons other before ih =>
      obtain ⟨unfit, unfitRest⟩ := List.forall_mem_cons.mp others
      rw [List.cons_append, first?, if_neg unfit, ih unfitRest]
      rfl

/-- An edit of the first place that fits finds something if there is such a place and the edit finds something in it. -/
theorem isSome_first?_iff {values : List α} :
    (first? fits edit values).isSome ↔
      ∃ held, values.find? (fun value => decide (fits value)) = some held ∧ (edit held).isSome := by
  induction values with
  | nil => simp [first?]
  | cons head rest ih =>
    rw [isSome_first?_cons, List.find?_cons]
    by_cases fit : fits head
    · simp [fit]
    · simp only [fit, if_false, decide_false, ih]

theorem isSome_first?_iff_exists_mem {values : List α} (finds : ∀ held, (edit held).isSome) :
    (first? fits edit values).isSome ↔ ∃ held ∈ values, fits held := by
  have located : (first? fits edit values).isSome ↔ (values.find? fun value => decide (fits value)).isSome := by
    rw [isSome_first?_iff, Option.isSome_iff_exists]
    exact exists_congr fun held => and_iff_left (finds held)
  simpa only [List.find?_isSome, decide_eq_true_eq] using located

end Edit

namespace Push

/-- A run is one that a push is about, and has a result with the external id of the push. -/
def Finds (push : Push) (run : CheckRun) : Prop :=
  run.info.identity = push.run.identity ∧
    ∃ externalId, push.result.externalId = some externalId ∧
      ∃ held ∈ run.results, held.result.externalId = some externalId

/-- The provider of a push has an entry in a context with a run that the push is about. -/
def FindsIn (push : Push) (board : Board) (context : PatchsetContext) : Prop :=
  ∃ entry, board.entry? context push.plugin = some entry ∧ ∃ run ∈ entry.runs, push.Finds run

/-- What becomes of a run: the pushed result takes the place and the id of the first one with its external id, and a run
that the push is not about stays. -/
structure UpdatesRun (push : Push) (run after : CheckRun) : Prop where
  found : push.Finds run → ∃ results, after = { run with results } ∧
    ChangesFirst (fun held => held.result.externalId = push.result.externalId)
      (fun held next => next = ⟨push.result, held.id⟩) run.results results
  kept : ¬ push.Finds run → after = run

/-- What becomes of the entry of the provider: each of its runs is updated, in its place. -/
def UpdatesEntry (push : Push) (entry after : Entry) : Prop :=
  ∃ runs, after = { entry with runs } ∧ List.Forall₂ push.UpdatesRun entry.runs runs

/-- What becomes of a store: one publication, in which the entry of the provider is updated in each context where the
push finds something, and all else stays as it is, down to the version of the entries of a context. -/
structure Updates (push : Push) (store after : Store) : Prop where
  pin : after.board.pin = store.board.pin
  published : after.published = store.published + 1
  found : ∀ context, push.FindsIn store.board context →
    (after.board.map context).version = EntryMap.versionAt context after.published ∧
      ChangesFirst (·.plugin = push.plugin) push.UpdatesEntry (store.board.map context).entries
        (after.board.map context).entries
  kept : ∀ context, ¬ push.FindsIn store.board context → after.board.map context = store.board.map context

theorem isSome_push?_iff {push : Push} {run : CheckRun} :
    (CheckRun.push? push.run push.result run).isSome ↔ push.Finds run := by
  cases named : push.result.externalId with
  | none =>
    rw [CheckRun.push?_of_unnamed named]
    exact ⟨nofun, fun ⟨_, _, absurdly, _⟩ => nomatch named.symm.trans absurdly⟩
  | some externalId =>
    by_cases same : run.info.sameRun push.run
    · rw [CheckRun.isSome_push?_of_sameRun named same, replaceFirst?, Edit.isSome_first?_iff_exists_mem fun _ => rfl]
      constructor
      · exact fun held => ⟨RunInfo.sameRun_iff.mp same, externalId, named, held⟩
      · rintro ⟨_, otherId, otherNamed, held⟩
        rwa [Option.some.inj (named.symm.trans otherNamed)]
    · rw [CheckRun.push?_of_not_sameRun same]
      exact ⟨nofun, fun ⟨identities, _⟩ => absurd (RunInfo.sameRun_iff.mpr identities) same⟩

theorem updatesRun (push : Push) (run : CheckRun) :
    push.UpdatesRun run ((CheckRun.push? push.run push.result).run run) := by
  constructor
  · intro finds
    obtain ⟨same, externalId, named, _⟩ := id finds
    obtain ⟨pushed, comes⟩ := Option.isSome_iff_exists.mp (isSome_push?_iff.mpr finds)
    rw [Edit.run, comes, Option.getD_some]
    rw [CheckRun.push?_of_sameRun named (RunInfo.sameRun_iff.mpr same)] at comes
    obtain ⟨results, replaced, rfl⟩ := Option.map_eq_some_iff.mp comes
    refine ⟨results, rfl, ?_⟩
    rw [named]
    exact (Edit.first?_eq_some_iff.mp replaced).imp fun held next changed => (Option.some.inj changed).symm
  · intro absent
    exact Edit.run_of_none (Option.not_isSome_iff_eq_none.mp fun found => absent (isSome_push?_iff.mp found))

theorem isSome_push?_entry_iff {push : Push} {entry : Entry} :
    (entry.push? push.run push.result).isSome ↔ ∃ run ∈ entry.runs, push.Finds run := by
  rw [Entry.isSome_push?, List.any_eq_true]
  simp only [isSome_push?_iff]

theorem updatesEntry {push : Push} {entry pushed : Entry} (comes : entry.push? push.run push.result = some pushed) :
    push.UpdatesEntry entry pushed := by
  have closed := Entry.push?_getD entry push.run push.result
  rw [comes, Option.getD_some] at closed
  refine ⟨_, closed, ?_⟩
  rw [List.forall₂_map_right_iff, List.forall₂_same]
  exact fun run _ => push.updatesRun run

theorem isSome_edit_iff {push : Push} {board : Board} {context : PatchsetContext} :
    (push.edit (board.map context).entries).isSome ↔ push.FindsIn board context := by
  rw [edit_eq, Edit.isSome_first?_iff]
  simp only [isSome_push?_entry_iff]
  rfl

theorem changesFirst {push : Push} {old new : Entries} (edited : push.edit old = some new) :
    ChangesFirst (·.plugin = push.plugin) push.UpdatesEntry old new := by
  rw [edit_eq] at edited
  exact (Edit.first?_eq_some_iff.mp edited).imp fun _ _ => updatesEntry

end Push

namespace Store

/-- The entries that a push puts in a context are what it makes of those there. -/
theorem renewed?_push (store : Store) (push : Push) (context : PatchsetContext) :
    store.renewed? context push.mutation = push.edit (store.board.map context).entries :=
  Replacement.entries?_ofBoth? store.board context push.edit

theorem accepts_push_iff {store : Store} {push : Push} :
    store.accepts push.mutation ↔ ∃ context, push.FindsIn store.board context := by
  rw [accepts_push, Bool.or_eq_true]
  constructor
  · rintro (found | found)
    · exact ⟨.latest, Push.isSome_edit_iff.mp found⟩
    · exact ⟨.selected, Push.isSome_edit_iff.mp found⟩
  · rintro ⟨context, found⟩
    cases context with
    | latest => exact .inl (Push.isSome_edit_iff.mpr found)
    | selected => exact .inr (Push.isSome_edit_iff.mpr found)

theorem updates_of_publish? {store after : Store} {push : Push} (comes : store.publish? push.mutation = some after) :
    push.Updates store after := by
  have applied : store.apply push.mutation = after := by rw [apply, comes, Option.getD_some]
  have published : after.published = store.published + 1 := by
    obtain ⟨replacement, _, rfl⟩ := Option.map_eq_some_iff.mp comes
    rfl
  refine ⟨?_, published, fun context found => ?_, fun context absent => ?_⟩
  · rw [← applied]
    exact pin_apply_push store push
  · obtain ⟨entries, edited⟩ := Option.isSome_iff_exists.mp (Push.isSome_edit_iff.mpr found)
    rw [← applied, map_apply, renewed?_push, edited, Option.map_some, Option.getD_some, applied, published]
    exact ⟨rfl, Push.changesFirst edited⟩
  · have nothing := Option.not_isSome_iff_eq_none.mp fun found => absent (Push.isSome_edit_iff.mp found)
    rw [← applied, map_apply, renewed?_push, nothing]
    rfl

end Store

namespace Model

theorem updateResult_of_accepts {model : Model} {push : Push} (accepted : model.store.accepts push.mutation) :
    ∃ store, model.store.publish? push.mutation = some store ∧
      model.updateResult push.plugin push.run push.result = (true, { model with store }) := by
  obtain ⟨store, comes⟩ := Option.isSome_iff_exists.mp accepted
  refine ⟨store, comes, ?_⟩
  rw [Push.mutation] at comes
  simp only [updateResult, comes]

theorem updateResult_of_not_accepts {model : Model} {push : Push} (refused : ¬ model.store.accepts push.mutation) :
    model.updateResult push.plugin push.run push.result = (false, model) := by
  have nothing := Option.not_isSome_iff_eq_none.mp refused
  rw [Push.mutation] at nothing
  simp only [updateResult, nothing]

/-- A push is accepted exactly if some context holds a result that it is about, then updates the store and nothing else,
and otherwise leaves the model as it is. -/
theorem updateResult_effect (model : Model) (push : Push) :
    let answer := model.updateResult push.plugin push.run push.result
    (answer.1 = true ↔ ∃ context, push.FindsIn model.store.board context) ∧
      (answer.1 = true → answer.2 = { model with store := answer.2.store } ∧
        push.Updates model.store answer.2.store) ∧
      (answer.1 = false → answer.2 = model) := by
  intro answer
  by_cases accepted : model.store.accepts push.mutation
  · obtain ⟨store, comes, answers⟩ := updateResult_of_accepts accepted
    have equal : answer = (true, { model with store }) := answers
    rw [equal]
    exact ⟨iff_of_true rfl (Store.accepts_push_iff.mp accepted), fun _ => ⟨rfl, Store.updates_of_publish? comes⟩, nofun⟩
  · have equal : answer = (false, model) := updateResult_of_not_accepts accepted
    rw [equal]
    exact ⟨iff_of_false Bool.false_ne_true fun found => accepted (Store.accepts_push_iff.mpr found), nofun,
      fun _ => rfl⟩

/-- A provider has reported in one context only. A push to what it has reported, and one to what it has not. -/
theorem updateResult_effect_reported :
    let reported := Store.repeatingReport ++ [.register "ci" .selected]
    let model : Model := { create {} {} with store := .applyAll {} reported }
    let push := Store.repeatedPush "a" "fixed"
    let stray := Store.repeatedPush "c" "fixed"
    let after := (model.updateResult push.plugin push.run push.result).2.store
    (∃ context, push.FindsIn model.store.board context) ∧ push.Updates model.store after ∧
      after.board.map .selected = model.store.board.map .selected ∧
      (model.updateResult stray.plugin stray.run stray.result).2 = model := by
  intro reported model push stray after
  obtain ⟨finds, updates, _⟩ := updateResult_effect model push
  have accepted : (model.updateResult push.plugin push.run push.result).1 = true := by decide
  have refused : (model.updateResult stray.plugin stray.run stray.result).1 = false := by decide
  exact ⟨finds.mp accepted, (updates accepted).2, by decide, (updateResult_effect model stray).2.2 refused⟩

end Model

end ReviewChecks
