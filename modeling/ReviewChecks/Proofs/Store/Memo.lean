import Mathlib.Data.List.Induction
import ReviewChecks.Board.Reading
import ReviewChecks.Proofs.Store.Versions

/-! # Memos are never stale

A memo holds a reading together with the version of the entries that were read. The reading is right of whatever
entries the store will ever have under that version (`Memo.Sound`), since a version stands for the same entries at all
times. So a memo that is only asked for one kind of reading gives at every time what reading the shown entries would
give, and it reads them anew exactly when they are not those of its previous reading (`Observer.read_run`).
-/

namespace ReviewChecks

variable {α : Type}

namespace Memo

/-- The held reading is that of all entries which the store has or will have under the held version. -/
def Sound (project : Entries → α) (store : Store) (memo : Memo α) : Prop :=
  ∀ version value, memo.held = some (version, value) → ∀ mutations context,
    ((store.applyAll mutations).board.map context).version = version →
      value = project ((store.applyAll mutations).board.map context).entries

theorem sound_empty (project : Entries → α) (store : Store) : ({} : Memo α).Sound project store :=
  fun _ _ held => nomatch held

/-- A sound memo stays so whatever happens to the store. -/
theorem Sound.apply {project : Entries → α} {store : Store} {memo : Memo α} (sound : memo.Sound project store)
    (mutation : Mutation) : memo.Sound project (store.apply mutation) :=
  fun version value held mutations => sound version value held (mutation :: mutations)

/-- Reading entries of the held version costs nothing. -/
theorem read_of_held {memo : Memo α} {version : Nat} {value : α} (held : memo.held = some (version, value))
    (project : Entries → α) (map : EntryMap) :
    memo.read project map =
      if version = map.version then (value, memo)
      else (project map.entries, ⟨some (map.version, project map.entries), memo.computed + 1⟩) := by
  rw [read, held]

theorem read_of_empty {memo : Memo α} (empty : memo.held = none) (project : Entries → α) (map : EntryMap) :
    memo.read project map =
      (project map.entries, ⟨some (map.version, project map.entries), memo.computed + 1⟩) := by
  rw [read, empty]

/-- A sound memo gives the reading of the entries of a context, and holds it from then on. -/
theorem Sound.read {project : Entries → α} {store : Store} {memo : Memo α} (sound : memo.Sound project store)
    (context : PatchsetContext) :
    let map := store.board.map context
    (memo.read project map).1 = project map.entries ∧
      (memo.read project map).2.held = some (map.version, project map.entries) := by
  intro map
  cases held : memo.held with
  | none => simp only [read_of_empty held, and_self]
  | some reading =>
    obtain ⟨version, value⟩ := reading
    rw [read_of_held held]
    split
    next same =>
      have right : value = project map.entries := sound version value held [] context same.symm
      exact ⟨right, by rw [held, same, right]⟩
    next => exact ⟨rfl, rfl⟩

/-- A memo that holds the reading of the entries of a context of a store with versions is sound. -/
theorem sound_of_held {project : Entries → α} {store : Store} {memo : Memo α} (numbered : store.Numbered)
    (context : PatchsetContext)
    (held : memo.held = some ((store.board.map context).version, project (store.board.map context).entries)) :
    memo.Sound project store := by
  intro version value holds mutations later same
  obtain ⟨rfl, rfl⟩ := Prod.mk.inj (Option.some.inj (held.symm.trans holds))
  obtain ⟨rfl, kept⟩ := (Store.version_eq_iff numbered mutations context later).mp same
  rw [Store.map_applyAll_of_keeps kept]

end Memo

/-- What happens to a store and to a memo of what it shows. -/
inductive MemoEvent where
  | mutate (mutation : Mutation)
  | read (context : PatchsetContext)

/-- A store and a memo of what it shows. -/
structure Observer (α : Type) where
  store : Store := {}
  memo : Memo α := {}

namespace Observer

/-- Reads the entries shown for a context through the memo. -/
def read (observer : Observer α) (project : Entries → α) (context : PatchsetContext) : α × Observer α :=
  let (value, memo) := observer.memo.read project (observer.store.board.view context)
  (value, { observer with memo })

/-- The store and the memo after an event. -/
def step (project : Entries → α) (observer : Observer α) : MemoEvent → Observer α
  | .mutate mutation => { observer with store := observer.store.apply mutation }
  | .read context => (observer.read project context).2

/-- The store and the memo after some events. -/
def run (project : Entries → α) (events : List MemoEvent) : Observer α :=
  events.foldl (step project) {}

theorem run_append (project : Entries → α) (events later : List MemoEvent) :
    run project (events ++ later) = later.foldl (step project) (run project events) :=
  List.foldl_append ..

theorem run_concat (project : Entries → α) (events : List MemoEvent) (event : MemoEvent) :
    run project (events ++ [event]) = (run project events).step project event :=
  run_append ..

theorem foldl_step_mutate (project : Entries → α) (observer : Observer α) (mutations : List Mutation) :
    (mutations.map MemoEvent.mutate).foldl (step project) observer =
      { observer with store := observer.store.applyAll mutations } := by
  induction mutations generalizing observer with
  | nil => rfl
  | cons mutation rest ih => exact ih _

/-- The entries of the store have versions, and the memo is right about them. -/
structure Consistent (project : Entries → α) (observer : Observer α) : Prop where
  numbered : observer.store.Numbered
  sound : observer.memo.Sound project observer.store

/-- Reading through a consistent memo gives the reading of the entries shown for the context, which it then holds. -/
theorem Consistent.read {project : Entries → α} {observer : Observer α} (consistent : observer.Consistent project)
    (context : PatchsetContext) :
    let map := observer.store.board.map (observer.store.board.shown context)
    let (value, after) := observer.read project context
    value = project map.entries ∧ after.memo.held = some (map.version, project map.entries) := by
  unfold Observer.read
  rw [Board.view_eq_map_shown]
  exact consistent.sound.read _

theorem Consistent.step {project : Entries → α} {observer : Observer α} (consistent : observer.Consistent project)
    (event : MemoEvent) : (observer.step project event).Consistent project := by
  cases event with
  | mutate mutation => exact ⟨consistent.numbered.apply mutation, consistent.sound.apply mutation⟩
  | read context =>
    exact ⟨consistent.numbered, Memo.sound_of_held consistent.numbered _ (consistent.read context).2⟩

theorem consistent_run (project : Entries → α) (events : List MemoEvent) :
    (run project events).Consistent project := by
  induction events using List.reverseRecOn with
  | nil => exact ⟨Store.numbered_empty, Memo.sound_empty project {}⟩
  | append_singleton events event ih =>
    rw [run_concat]
    exact ih.step event

/-- A memo that has not been asked holds nothing. -/
theorem held_run_of_unread (project : Entries → α) {events : List MemoEvent}
    (unread : ∀ context, .read context ∉ events) : (run project events).memo.held = none := by
  induction events using List.reverseRecOn with
  | nil => rfl
  | append_singleton events event ih =>
    rw [run_concat]
    cases event with
    | mutate mutation => exact ih fun context member => unread context (List.mem_append_left _ member)
    | read context => exact absurd (List.mem_append_right _ (List.mem_singleton_self _)) (unread context)

/-- How often a consistent memo will have read entries after one more time, told by the entries that it was asked for
before and by what has happened to the store since. -/
theorem Consistent.computed_read {project : Entries → α} {before : Observer α} (consistent : before.Consistent project)
    (asked context : PatchsetContext) (mutations : List Mutation) :
    let memo := (before.read project asked).2.memo
    let now : Observer α := ⟨before.store.applyAll mutations, memo⟩
    (now.read project context).2.memo.computed =
      memo.computed + if now.store.board.shown context = before.store.board.shown asked ∧
        before.store.keeps (before.store.board.shown asked) mutations then 0 else 1 := by
  intro memo now
  have held : memo.held = some ((before.store.board.map (before.store.board.shown asked)).version,
      project (before.store.board.map (before.store.board.shown asked)).entries) := (consistent.read asked).2
  change (memo.read project (now.store.board.view context)).2.computed = _
  rw [Board.view_eq_map_shown, Memo.read_of_held held]
  have unchanged := Store.version_eq_iff consistent.numbered mutations (before.store.board.shown asked)
    (now.store.board.shown context)
  by_cases same : (now.store.board.map (now.store.board.shown context)).version =
      (before.store.board.map (before.store.board.shown asked)).version
  · rw [if_pos same.symm, if_pos (unchanged.mp same)]
    rfl
  · rw [if_neg (Ne.symm same), if_neg (mt unchanged.mpr same)]

/-- Whatever has happened to a store, and whatever its memo was asked for in between, the next reading through the memo
is the reading of the entries that the store shows at that time for the context asked for. The entries are read anew
when the memo was not asked before; and when it was, exactly if now those of the other context are shown or they have
been replaced since. -/
theorem read_run (project : Entries → α) (events : List MemoEvent) (context : PatchsetContext) :
    let observer := run project events
    let (value, after) := observer.read project context
    value = project (observer.store.board.view context).entries ∧
      ((∀ asked, .read asked ∉ events) → after.memo.computed = observer.memo.computed + 1) ∧
      ∀ earlier asked mutations, events = earlier ++ .read asked :: mutations.map .mutate →
        let before := (run project earlier).store
        after.memo.computed = observer.memo.computed +
          if observer.store.board.shown context = before.board.shown asked ∧
            before.keeps (before.board.shown asked) mutations then 0 else 1 := by
  refine ⟨((consistent_run project events).read context).1.trans ?_, fun unread => ?_, ?_⟩
  · rw [Board.view_eq_map_shown]
  · exact congrArg (·.2.computed) (Memo.read_of_empty (held_run_of_unread project unread) project _)
  · rintro earlier asked mutations rfl
    have split : run project (earlier ++ .read asked :: mutations.map .mutate) =
        ⟨(run project earlier).store.applyAll mutations, ((run project earlier).read project asked).2.memo⟩ := by
      rw [run_append, List.foldl_cons, foldl_step_mutate]
      rfl
    rw [split]
    exact (consistent_run project earlier).computed_read asked context mutations

/-- The checks of the latest patchset are read before a patchset is pinned. -/
def readBeforePin : List MemoEvent :=
  [.mutate (.register "ci" .latest), .read .selected, .mutate (.setPin (some 1))]

/-- While the pin is there the selected context shows other entries, and without it those that the memo knows. -/
theorem read_run_pinned :
    let pinned := (run List.length readBeforePin).read List.length .selected
    let unpinned := (run List.length (readBeforePin ++ [.mutate (.setPin none)])).read List.length .selected
    (pinned.1 = 0 ∧ pinned.2.memo.computed = 2) ∧ unpinned.1 = 1 ∧ unpinned.2.memo.computed = 1 := by
  obtain ⟨pinned, _, anew⟩ := read_run List.length readBeforePin .selected
  obtain ⟨unpinned, _, again⟩ := read_run List.length (readBeforePin ++ [.mutate (.setPin none)]) .selected
  exact ⟨⟨pinned, anew [.mutate (.register "ci" .latest)] .selected [.setPin (some 1)] rfl⟩, unpinned,
    again [.mutate (.register "ci" .latest)] .selected [.setPin (some 1), .setPin none] rfl⟩

end Observer

end ReviewChecks
