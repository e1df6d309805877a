import ReviewChecks.Proofs.Model.Pin
import ReviewChecks.Proofs.Store.PushEffect

/-! # What is published and what is shared

A mutation rewrites the entries of certain contexts (`Mutation.Rewrites`) or moves the pin (`Mutation.MovesPin`), and it
is published exactly if it does one of the two (`Store.accepts_iff`). A publication gives the contexts that it rewrites
new entries, under a version that no entries have had before, and shares those of the others with the board before it.
Writers whose token is cancelled take no part in this: a store with tokens is the plain store of what the others write
(`GuardedStore.store_run`).
-/

namespace ReviewChecks

namespace Mutation

/-- A mutation rewrites the entries of a context: those of the one that it is about; in a removal those with an entry of
the provider; in a push those that hold what is pushed. -/
def Rewrites (board : Board) (context : PatchsetContext) : Mutation → Prop
  | .register _ within | .startLoading _ within | .fail _ within _ | .requireLogin _ within _
  | .load _ within _ _ _ => within = context
  | .remove plugin => (board.entry? context plugin).isSome
  | .push plugin run result => Push.FindsIn ⟨plugin, run, result⟩ board context
  | .setPin _ | .normalizePin _ => False

/-- A mutation moves the pin: it sets another one, or drops the one there is because the latest patchset is that one or
is not known. -/
def MovesPin (board : Board) : Mutation → Prop
  | .setPin patchset => patchset ≠ board.pin
  | .normalizePin latest => ∃ pinned, board.pin = some pinned ∧ (latest = some pinned ∨ latest = none)
  | .register _ _ | .remove _ | .startLoading _ _ | .fail _ _ _ | .requireLogin _ _ _ | .load _ _ _ _ _
  | .push _ _ _ => False

/-- A mutation replaces something. -/
def Replaces (board : Board) (mutation : Mutation) : Prop :=
  mutation.MovesPin board ∨ ∃ context, mutation.Rewrites board context

/-- The pin moves exactly if it is another one afterwards. -/
theorem movesPin_iff {board : Board} {mutation : Mutation} :
    mutation.MovesPin board ↔ mutation.pinAfter board.pin ≠ board.pin := by
  cases mutation with
  | setPin patchset => exact Iff.rfl
  | normalizePin latest =>
    cases pinned : board.pin with
    | none => simp [MovesPin, pinAfter, pinned]
    | some patchset =>
      simp only [MovesPin, pinAfter, pinned, Option.some.injEq, exists_eq_left']
      split <;> simp_all [or_comm]
  | register | remove | startLoading | fail | requireLogin | load | push =>
    exact iff_of_false id fun moved => moved rfl

theorem isSome_ofBoth?_iff {latest selected : Option Entries} :
    (Replacement.ofBoth? latest selected).isSome ↔
      ∃ context, ((Replacement.ofBoth? latest selected).bind (·.entries? context)).isSome := by
  unfold Replacement.ofBoth?
  split
  next found =>
    refine iff_of_true rfl ?_
    rcases Bool.or_eq_true_iff.mp found with held | held
    · exact ⟨.latest, held⟩
    · exact ⟨.selected, held⟩
  next => exact iff_of_false Bool.false_ne_true fun ⟨_, held⟩ => Bool.false_ne_true held

/-- No replacement is empty. -/
theorem isSome_replacement?_iff {board : Board} {mutation : Mutation} :
    (mutation.replacement? board).isSome ↔
      mutation.MovesPin board ∨ ∃ context, ((mutation.replacement? board).bind (·.entries? context)).isSome := by
  have pin_alone (about : mutation.IsAboutPin)
      (moves : (mutation.replacement? board).isSome ↔ mutation.MovesPin board) :
      (mutation.replacement? board).isSome ↔
        mutation.MovesPin board ∨ ∃ context, ((mutation.replacement? board).bind (·.entries? context)).isSome := by
    simpa only [entries?_of_isAboutPin about, Option.isSome_none, Bool.false_eq_true, exists_false, or_false]
      using moves
  cases mutation with
  | register plugin within | startLoading plugin within | fail plugin within | requireLogin plugin within
  | load plugin within => exact iff_of_true rfl (.inr ⟨within, by cases within <;> rfl⟩)
  | remove | push => exact isSome_ofBoth?_iff.trans (or_iff_right id).symm
  | setPin patchset =>
    refine pin_alone trivial ?_
    simp only [replacement?, MovesPin]
    split
    next same => exact iff_of_false Bool.false_ne_true fun other => other same.symm
    next other => exact iff_of_true rfl (Ne.symm other)
  | normalizePin latest =>
    refine pin_alone trivial ?_
    simp only [replacement?, MovesPin]
    split
    next pinned latest held =>
      split
      next same => exact iff_of_true rfl ⟨pinned, held, .inl (congrArg some same.symm)⟩
      next other => simp [held, Ne.symm other]
    next pinned held => exact iff_of_true rfl ⟨pinned, held, .inr rfl⟩
    next unpinned => simp [unpinned]

end Mutation

theorem Entries.isSome_erase?_iff {entries : Entries} {plugin : String} :
    (entries.erase? plugin).isSome ↔ (entries.get? plugin).isSome := by
  unfold erase?
  split
  next held => exact iff_of_true rfl held
  next absent => exact iff_of_false Bool.false_ne_true absent

namespace Store

theorem isSome_entries?_replaceEntry {board : Board} {plugin : String} {within context : PatchsetContext}
    {change : Entry → Entry} :
    ((Mutation.replaceEntry board plugin within change).entries? context).isSome ↔ within = context := by
  cases within <;> cases context <;> simp [Mutation.replaceEntry, Replacement.ofContext, Replacement.entries?]

/-- A version that belongs to a later publication is not that of any entries there are. -/
theorem Numbered.version_ne {store : Store} (numbered : store.Numbered) {stamp : Nat} (later : store.published < stamp)
    (context other : PatchsetContext) : EntryMap.versionAt context stamp ≠ (store.board.map other).version := by
  obtain ⟨own, bound, version⟩ := numbered other
  intro same
  obtain ⟨_, rfl⟩ := EntryMap.versionAt_inj (same.trans version)
  exact absurd bound (Nat.not_le.mpr later)

/-- A context gets new entries exactly if the mutation rewrites them. -/
theorem isSome_renewed?_iff {store : Store} {context : PatchsetContext} {mutation : Mutation} :
    (store.renewed? context mutation).isSome ↔ mutation.Rewrites store.board context := by
  cases mutation with
  | register | startLoading | fail | requireLogin | load => exact isSome_entries?_replaceEntry
  | remove plugin =>
    have renewed : store.renewed? context (.remove plugin) = (store.board.map context).entries.erase? plugin :=
      Replacement.entries?_ofBoth? store.board context (·.erase? plugin)
    rw [renewed]
    exact Entries.isSome_erase?_iff
  | push plugin run result =>
    have renewed := store.renewed?_push ⟨plugin, run, result⟩ context
    rw [Push.mutation] at renewed
    rw [renewed]
    exact Push.isSome_edit_iff
  | setPin | normalizePin =>
    rw [renewed?, Mutation.entries?_of_isAboutPin (by trivial), Option.isSome_none]
    exact iff_of_false Bool.false_ne_true id

/-- A mutation is published exactly if it replaces something. -/
theorem accepts_iff {store : Store} {mutation : Mutation} :
    store.accepts mutation ↔ mutation.Replaces store.board := by
  simp only [accepts, publish?, Option.isSome_map, Mutation.Replaces, ← isSome_renewed?_iff]
  exact Mutation.isSome_replacement?_iff

/-- What a publication makes of a store: contexts that it rewrites get new entries, the others share theirs with the
store before, and the pin is another one exactly if it is moved. -/
structure Republishes (store : Store) (mutation : Mutation) (after : Store) : Prop where
  published : after.published = store.published + 1
  rewritten : ∀ context, mutation.Rewrites store.board context →
    (after.board.map context).version = EntryMap.versionAt context after.published
  shared : ∀ context, ¬ mutation.Rewrites store.board context → after.board.map context = store.board.map context
  pin : after.board.pin ≠ store.board.pin ↔ mutation.MovesPin store.board

theorem republishes {store after : Store} {mutation : Mutation} (comes : store.publish? mutation = some after) :
    store.Republishes mutation after := by
  have applied : store.apply mutation = after := by rw [apply, comes, Option.getD_some]
  have published : after.published = store.published + 1 := by
    obtain ⟨replacement, _, rfl⟩ := Option.map_eq_some_iff.mp comes
    rfl
  refine ⟨published, fun context rewrites => ?_, fun context spared => ?_, ?_⟩
  · obtain ⟨entries, renewed⟩ := Option.isSome_iff_exists.mp (isSome_renewed?_iff.mpr rewrites)
    rw [← applied, map_apply, renewed, Option.map_some, Option.getD_some, applied, published]
  · have kept := Option.not_isSome_iff_eq_none.mp (mt isSome_renewed?_iff.mp spared)
    rw [← applied, map_apply, kept]
    rfl
  · rw [← applied, pin_apply]
    exact Mutation.movesPin_iff.symm

end Store

/-- After some events the token of a handle, if it has one, is not cancelled. -/
def Handle.LiveAfter (handle : Handle) (events : List GuardedEvent) : Prop :=
  ∀ token, handle.token = some token → .cancel token ∉ events

namespace GuardedStore

/-- What is written in some events through handles whose token, if they have one, is not cancelled by then, where some
tokens are cancelled before. -/
def heeded : List String → List GuardedEvent → List Mutation
  | _, [] => []
  | cancelled, .cancel token :: rest => heeded (token :: cancelled) rest
  | cancelled, .write handle mutation :: rest =>
    (if ∃ token ∈ cancelled, handle.token = some token then [] else [mutation]) ++ heeded cancelled rest

variable {guarded : GuardedStore}

theorem isLive_iff {handle : Handle} :
    guarded.isLive handle ↔ ¬ ∃ token ∈ guarded.cancelled, handle.token = some token := by
  unfold isLive
  split
  next token held => simp [held]
  next free => simp [free]

theorem publish?_of_isLive {handle : Handle} (live : guarded.isLive handle) (mutation : Mutation) :
    guarded.publish? handle mutation =
      (guarded.store.publish? mutation).map fun store => { guarded with store } :=
  if_pos live

theorem publish?_of_not_isLive {handle : Handle} (dead : ¬ guarded.isLive handle) (mutation : Mutation) :
    guarded.publish? handle mutation = none :=
  if_neg dead

theorem cancelled_step_write (handle : Handle) (mutation : Mutation) :
    (guarded.step (.write handle mutation)).cancelled = guarded.cancelled := by
  rw [step, publish?]
  split
  · cases guarded.store.publish? mutation <;> rfl
  · rfl

theorem store_step_write (handle : Handle) (mutation : Mutation) :
    (guarded.step (.write handle mutation)).store =
      guarded.store.applyAll (if ∃ token ∈ guarded.cancelled, handle.token = some token then [] else [mutation]) := by
  by_cases live : guarded.isLive handle
  · rw [if_neg (isLive_iff.mp live), step, publish?_of_isLive live]
    cases comes : guarded.store.publish? mutation with
    | none => simp [Store.applyAll, Store.apply, comes]
    | some store => simp [Store.applyAll, Store.apply, comes]
  · rw [if_pos (not_not.mp (mt isLive_iff.mpr live)), step, publish?_of_not_isLive live]
    rfl

/-- Tokens are cancelled for good. -/
theorem mem_cancelled_run {token : String} {events : List GuardedEvent} :
    token ∈ (guarded.run events).cancelled ↔ token ∈ guarded.cancelled ∨ .cancel token ∈ events := by
  induction events generalizing guarded with
  | nil => simp [run]
  | cons event rest ih =>
    refine (@ih (guarded.step event)).trans ?_
    cases event with
    | cancel other => simp [step, cancel, or_assoc, or_left_comm]
    | write handle mutation => simp [cancelled_step_write]

theorem isLive_run_iff {handle : Handle} {events : List GuardedEvent} :
    (({} : GuardedStore).run events).isLive handle ↔ handle.LiveAfter events := by
  rw [isLive_iff, Handle.LiveAfter]
  simp only [mem_cancelled_run, List.not_mem_nil, false_or, not_exists, not_and]
  exact forall_congr' fun token => imp_not_comm

/-- The store is the one that the writers with live tokens alone lead to. -/
theorem store_run (events : List GuardedEvent) :
    (guarded.run events).store = guarded.store.applyAll (heeded guarded.cancelled events) := by
  induction events generalizing guarded with
  | nil => rfl
  | cons event rest ih =>
    refine (@ih (guarded.step event)).trans ?_
    cases event with
    | cancel token => rfl
    | write handle mutation =>
      rw [store_step_write, cancelled_step_write, heeded, Store.applyAll, Store.applyAll, Store.applyAll,
        List.foldl_append]

theorem published_le_run (events : List GuardedEvent) :
    guarded.store.published ≤ (guarded.run events).store.published := by
  rw [store_run]
  exact (Store.Precedes.applyAll ..).published

theorem numbered_run (events : List GuardedEvent) : (({} : GuardedStore).run events).store.Numbered := by
  rw [store_run]
  exact Store.numbered_empty.applyAll _

/-- Whatever was written and cancelled before, a write is published exactly if the token of its handle is not cancelled
and its mutation replaces something. Otherwise it leaves all as it is, down to the number of the last publication, so
that the store is the one that the writers with live tokens alone lead to. What is published gives the contexts that it
rewrites entries under a version that no entries have ever had, and shares those of the other contexts. -/
theorem writes_publish_and_share (events : List GuardedEvent) (handle : Handle) (mutation : Mutation) :
    let before := ({} : GuardedStore).run events
    let after := before.step (.write handle mutation)
    let counts := handle.LiveAfter events ∧ mutation.Replaces before.store.board
    ((before.publish? handle mutation).isSome ↔ counts) ∧
    (¬ counts → after = before) ∧
    (counts → before.store.Republishes mutation after.store ∧
      ∀ context, mutation.Rewrites before.store.board context → ∀ earlier later other, events = earlier ++ later →
        (after.store.board.map context).version ≠ ((({} : GuardedStore).run earlier).store.board.map other).version) ∧
    before.store = Store.applyAll {} (heeded [] events) := by
  intro before after counts
  have published : (before.publish? handle mutation).isSome ↔ counts := by
    by_cases live : before.isLive handle
    · rw [publish?_of_isLive live, Option.isSome_map]
      exact Store.accepts_iff.trans (and_iff_right (isLive_run_iff.mp live)).symm
    · rw [publish?_of_not_isLive live]
      exact iff_of_false Bool.false_ne_true fun counted => live (isLive_run_iff.mpr counted.1)
  refine ⟨published, fun ignored => ?_, fun counted => ?_, store_run events⟩
  · have nothing := Option.not_isSome_iff_eq_none.mp (mt published.mp ignored)
    exact congrArg (·.getD before) nothing
  · obtain ⟨next, comes⟩ := Option.isSome_iff_exists.mp (published.mpr counted)
    have reached : after = next := congrArg (·.getD before) comes
    rw [publish?_of_isLive (isLive_run_iff.mpr counted.1)] at comes
    obtain ⟨store, stored, rfl⟩ := Option.map_eq_some_iff.mp comes
    have republishes := Store.republishes stored
    rw [reached]
    refine ⟨republishes, ?_⟩
    rintro context rewrites earlier later other rfl
    have grown : (({} : GuardedStore).run earlier).store.published ≤ before.store.published := by
      have split : before = (({} : GuardedStore).run earlier).run later := List.foldl_append ..
      rw [split]
      exact published_le_run later
    rw [republishes.rewritten context rewrites, republishes.published]
    exact (numbered_run earlier).version_ne (Nat.lt_succ_of_le grown) context other

/-- A provider has reported through a handle whose token has been cancelled since. -/
def departedEvents : List GuardedEvent :=
  [.write {} (.register "ci" .latest), .write ⟨some "first"⟩ (.load "ci" .latest [] [] []), .cancel "first"]

/-- What the provider still writes changes nothing. Its removal is published, and the selected context, where it has no
entry, keeps its entries. -/
theorem writes_publish_and_share_departed :
    let before := ({} : GuardedStore).run departedEvents
    let after := before.step (.write {} (.remove "ci"))
    before.step (.write ⟨some "first"⟩ (.startLoading "ci" .latest)) = before ∧
      before.store.Republishes (.remove "ci") after.store ∧
      after.store.board.latest.version ≠ before.store.board.latest.version := by
  intro before after
  obtain ⟨_, ignored, _, _⟩ := writes_publish_and_share departedEvents ⟨some "first"⟩ (.startLoading "ci" .latest)
  obtain ⟨_, _, counted, _⟩ := writes_publish_and_share departedEvents {} (.remove "ci")
  have dead : ¬ Handle.LiveAfter ⟨some "first"⟩ departedEvents := fun live =>
    live "first" rfl (List.mem_of_getElem? (i := 2) rfl)
  have held : (before.store.board.entry? .latest "ci").isSome := by decide
  obtain ⟨republishes, fresh⟩ := counted ⟨nofun, .inr ⟨.latest, held⟩⟩
  exact ⟨ignored fun counts => dead counts.1, republishes, fresh .latest held departedEvents [] .latest rfl⟩

end GuardedStore

end ReviewChecks
