import Mathlib.Data.List.Chain
import ReviewChecks.Proofs.Store.Memo
import ReviewChecks.Store.View

/-! # Streams lose nothing and repeat nothing

A stream of a view remembers the last value it has yielded and the last publication it has looked at, and its selector
may hold a reading of older entries. Between them these are always such that asking for the next value comes to one
comparison: that of the view of the current board with the last value yielded (`Watch.Faithful.next`). So the stream
yields exactly what an observer of every board would have it yield at that time, whatever was published since and
whatever was looked at in between (`Watch.yields_run`).
-/

namespace ReviewChecks

variable {α : Type}

/-- A pure view of the board, of the entries shown for a context or of the whole. -/
inductive Projection (α : Type) where
  | ofContext (context : PatchsetContext) (project : Entries → α)
  | ofBoard (project : Board → α)

namespace Projection

/-- The value of a view. -/
def value (board : Board) : Projection α → α
  | .ofContext context project => project (board.view context).entries
  | .ofBoard project => project board

/-- How a stream reads a view, with a memo where it is one of entries. -/
def selector : Projection α → Selector (Memo α) α
  | .ofContext context project => .ofContext context project
  | .ofBoard project => { read := fun memo board => (project board, memo) }

/-- What the memo of a view's selector holds is right. -/
def Sound (store : Store) (memo : Memo α) : Projection α → Prop
  | .ofContext _ project => memo.Sound project store
  | .ofBoard _ => True

theorem sound_empty (projection : Projection α) (store : Store) : projection.Sound store {} := by
  cases projection with
  | ofContext context project => exact Memo.sound_empty project store
  | ofBoard => trivial

theorem Sound.apply {projection : Projection α} {store : Store} {memo : Memo α} (sound : projection.Sound store memo)
    (mutation : Mutation) : projection.Sound (store.apply mutation) memo := by
  cases projection with
  | ofContext context project => exact Memo.Sound.apply sound mutation
  | ofBoard => trivial

/-- A selector reads off a board what the view shows, whatever it has read before. -/
theorem Sound.read {projection : Projection α} {store : Store} {memo : Memo α} (sound : projection.Sound store memo)
    (numbered : store.Numbered) :
    (projection.selector.read memo store.board).1 = projection.value store.board ∧
      projection.Sound store (projection.selector.read memo store.board).2 := by
  cases projection with
  | ofContext context project =>
    simp only [selector, Selector.ofContext, Projection.value, Board.view_eq_map_shown]
    have right := Memo.Sound.read sound (store.board.shown context)
    exact ⟨right.1, Memo.sound_of_held numbered _ right.2⟩
  | ofBoard => exact ⟨rfl, trivial⟩

end Projection

/-- The pure view that a view on offer is. -/
def View.projection : View → Projection ViewValue
  | .pluginRegistered => .ofContext .latest fun entries => .flag entries.pluginRegistered
  | .selectedPatchset => .ofBoard fun board => .patchset board.pin
  | .checkOwners => .ofContext .latest fun entries => .owners entries.checkOwners
  | .ofContext view context => .ofContext context fun entries => view.read entries

/-- What happens to a store and to a stream of a view of it. A stream that is waited for is asked for its next value
whenever something has been published. -/
inductive StreamEvent where
  | mutate (mutation : Mutation)
  | next (closed : Bool)
  | current

/-- Whether the stream is only looked at. -/
def StreamEvent.isCurrent : StreamEvent → Bool
  | .current => true
  | .mutate _ | .next _ => false

/-- The value in an answer, if there is one. -/
def Poll.value? : Poll α → Option α
  | .value new => some new
  | .pending | .ended => none

/-- The answer of a stream that has nothing new. -/
def Poll.idle (closed : Bool) : Poll α :=
  if closed then .ended else .pending

theorem Poll.value?_idle (closed : Bool) : (idle closed : Poll α).value? = none := by
  cases closed <;> rfl

/-- A store, a stream of a view of it, and the values that the stream has yielded. -/
structure Watch (α : Type) where
  store : Store
  stream : ViewStream (Memo α) α
  yielded : List α := []

namespace Watch

/-- The watch of a view that is opened after some mutations. -/
def opened (projection : Projection α) (mutations : List Mutation) : Watch α where
  store := Store.applyAll {} mutations
  stream := .ofSelector projection.selector {} (Store.applyAll {} mutations)

/-- The stream of a view on offer is that of a pure view. -/
theorem stream_opened (view : View) (mutations : List Mutation) :
    (opened view.projection mutations).stream = view.open (Store.applyAll {} mutations) := by
  cases view <;> rfl

variable [DecidableEq α]

/-- The watch after an event. -/
def step (watch : Watch α) : StreamEvent → Watch α
  | .mutate mutation => { watch with store := watch.store.apply mutation }
  | .next closed =>
    let (answer, stream) := watch.stream.next watch.store closed
    { watch with stream, yielded := watch.yielded ++ answer.value?.toList }
  | .current => { watch with stream := (watch.stream.current watch.store).2 }

/-- The watch after some events. -/
def run (watch : Watch α) (events : List StreamEvent) : Watch α :=
  events.foldl step watch

theorem run_concat (watch : Watch α) (events : List StreamEvent) (event : StreamEvent) :
    watch.run (events ++ [event]) = (watch.run events).step event :=
  List.foldl_append ..

/-- What asking for the next value comes to, by the values yielded so far and by the view of the current board. -/
def answer (yielded : List α) (shown : α) (closed : Bool) : Poll α :=
  if yielded.getLast? = some shown then .idle closed else .value shown

theorem getLast?_append_answer (yielded : List α) (shown : α) (closed : Bool) :
    (yielded ++ (answer yielded shown closed).value?.toList).getLast? = some shown := by
  unfold answer
  split
  next same => rw [Poll.value?_idle, Option.toList_none, List.append_nil, same]
  next => exact List.getLast?_concat

theorem isChain_append_answer {yielded : List α} (chain : yielded.IsChain (· ≠ ·)) (shown : α) (closed : Bool) :
    (yielded ++ (answer yielded shown closed).value?.toList).IsChain (· ≠ ·) := by
  unfold answer
  split
  next => rwa [Poll.value?_idle, Option.toList_none, List.append_nil]
  next new =>
    refine List.isChain_append.mpr ⟨chain, List.isChain_singleton _, ?_⟩
    rintro last member _ ⟨⟩ rfl
    exact new member

/-- The stream knows what it has yielded and where it has looked. -/
structure Faithful (projection : Projection α) (watch : Watch α) : Prop where
  selector : watch.stream.selector = projection.selector
  numbered : watch.store.Numbered
  sound : projection.Sound watch.store watch.stream.state
  seen : watch.stream.seen ≤ watch.store.published
  last : watch.stream.last = watch.yielded.getLast?
  /-- Once it has looked at the current board, the last value yielded is that of the board. -/
  looked : watch.stream.last.isSome → watch.stream.seen = watch.store.published →
    watch.stream.last = some (projection.value watch.store.board)

omit [DecidableEq α] in
theorem faithful_opened (projection : Projection α) (mutations : List Mutation) :
    (opened projection mutations).Faithful projection where
  selector := rfl
  numbered := Store.numbered_empty.applyAll mutations
  sound := projection.sound_empty _
  seen := Nat.le_refl _
  last := rfl
  looked yielded := nomatch yielded

omit [DecidableEq α] in
theorem Faithful.mutate {projection : Projection α} {watch : Watch α} (faithful : watch.Faithful projection)
    (mutation : Mutation) : Faithful projection { watch with store := watch.store.apply mutation } where
  selector := faithful.selector
  numbered := faithful.numbered.apply mutation
  sound := faithful.sound.apply mutation
  seen := Nat.le_trans faithful.seen (watch.store.published_le_apply mutation)
  last := faithful.last
  looked yielded current := by
    -- a mutation that publishes leaves the stream behind, and another one changes nothing
    have seen := faithful.seen
    change watch.stream.seen = (watch.store.apply mutation).published at current
    change watch.stream.last = some (projection.value (watch.store.apply mutation).board)
    unfold Store.apply at current ⊢
    cases published : watch.store.publish? mutation with
    | none =>
      rw [published] at current
      exact faithful.looked yielded current
    | some store =>
      obtain ⟨replacement, _, rfl⟩ := Option.map_eq_some_iff.mp published
      rw [published] at current
      change watch.stream.seen = watch.store.published + 1 at current
      omega

omit [DecidableEq α] in
/-- Looking at a stream gives the view of the current board and leaves the stream as it was but for its memo. -/
theorem Faithful.current {projection : Projection α} {watch : Watch α} (faithful : watch.Faithful projection) :
    (watch.stream.current watch.store).1 = projection.value watch.store.board ∧
      Faithful projection { watch with stream := (watch.stream.current watch.store).2 } := by
  have read := faithful.sound.read faithful.numbered
  rw [← faithful.selector] at read
  exact ⟨read.1, faithful.selector, faithful.numbered, read.2, faithful.seen, faithful.last, faithful.looked⟩

/-- Asking for the next value compares the view of the current board with the last value yielded, which afterwards is
that view. -/
theorem Faithful.next {projection : Projection α} {watch : Watch α} (faithful : watch.Faithful projection)
    (closed : Bool) :
    let shown := projection.value watch.store.board
    let asked := watch.stream.next watch.store closed
    asked.1 = answer watch.yielded shown closed ∧ asked.2.selector = projection.selector ∧
      projection.Sound watch.store asked.2.state ∧ asked.2.seen ≤ watch.store.published ∧
      asked.2.last = some shown := by
  have read := faithful.sound.read faithful.numbered
  rw [← faithful.selector] at read
  have ⟨selector, _, sound, seen, last, looked⟩ := faithful
  simp only [ViewStream.next, answer, ← last]
  split
  next idle =>
    obtain ⟨yielded, current⟩ := Bool.and_eq_true_iff.mp idle
    have same := looked yielded (beq_iff_eq.mp current)
    exact ⟨(if_pos same).symm, selector, sound, seen, same⟩
  next =>
    rw [read.1]
    split
    next same => exact ⟨rfl, selector, read.2, Nat.le_refl _, same⟩
    next => exact ⟨rfl, selector, read.2, Nat.le_refl _, rfl⟩

theorem Faithful.yielded_next {projection : Projection α} {watch : Watch α} (faithful : watch.Faithful projection)
    (closed : Bool) :
    (watch.step (.next closed)).yielded =
      watch.yielded ++ (answer watch.yielded (projection.value watch.store.board) closed).value?.toList :=
  congrArg (fun given : Poll α => watch.yielded ++ given.value?.toList) (faithful.next closed).1

theorem Faithful.step {projection : Projection α} {watch : Watch α} (faithful : watch.Faithful projection)
    (event : StreamEvent) : (watch.step event).Faithful projection := by
  cases event with
  | mutate mutation => exact faithful.mutate mutation
  | next closed =>
    obtain ⟨_, selector, sound, seen, last⟩ := faithful.next closed
    refine ⟨selector, faithful.numbered, sound, seen, ?_, fun _ _ => last⟩
    rw [faithful.yielded_next, getLast?_append_answer]
    exact last
  | current => exact faithful.current.2

theorem Faithful.run {projection : Projection α} {watch : Watch α} (faithful : watch.Faithful projection)
    (events : List StreamEvent) : (watch.run events).Faithful projection := by
  induction events generalizing watch with
  | nil => exact faithful
  | cons event rest ih => exact ih (faithful.step event)

/-- No value is yielded twice in a row. -/
theorem Faithful.isChain_run {projection : Projection α} {watch : Watch α} (faithful : watch.Faithful projection)
    (chain : watch.yielded.IsChain (· ≠ ·)) (events : List StreamEvent) :
    (watch.run events).yielded.IsChain (· ≠ ·) := by
  induction events using List.reverseRecOn with
  | nil => exact chain
  | append_singleton events event ih =>
    rw [run_concat]
    cases event with
    | mutate => exact ih
    | current => exact ih
    | next closed =>
      rw [(faithful.run events).yielded_next]
      exact isChain_append_answer ih _ _

/-- Looking at a stream changes neither the store nor what is yielded. -/
theorem Faithful.run_filter {projection : Projection α} {watch : Watch α} (faithful : watch.Faithful projection)
    (events : List StreamEvent) :
    (watch.run (events.filter (!·.isCurrent))).store = (watch.run events).store ∧
      (watch.run (events.filter (!·.isCurrent))).yielded = (watch.run events).yielded := by
  induction events using List.reverseRecOn with
  | nil => exact ⟨rfl, rfl⟩
  | append_singleton events event ih =>
    obtain ⟨store, yielded⟩ := ih
    rw [List.filter_append, run_concat]
    cases event with
    | current => exact (List.append_nil (events.filter _)).symm ▸ ⟨store, yielded⟩
    | mutate mutation =>
      rw [List.filter_cons_of_pos rfl, List.filter_nil, run_concat]
      exact ⟨congrArg (·.apply mutation) store, yielded⟩
    | next closed =>
      rw [List.filter_cons_of_pos rfl, List.filter_nil, run_concat]
      refine ⟨store, ?_⟩
      rw [(faithful.run _).yielded_next, (faithful.run events).yielded_next, store, yielded]

/-- A stream of a pure view, opened at any time and then asked and looked at in any order with what happens to the
store. It never yields one value twice in a row. Looking at it gives the view of the current board. Asking for the next
value yields the view of the current board unless that is what was yielded last; so there is always a first value, and
a stream that is left waiting has told the newest. And leaving the looks out changes neither what has been yielded nor
the next answer. -/
theorem yields_run (projection : Projection α) (mutations : List Mutation) (events : List StreamEvent) :
    let watch := (opened projection mutations).run events
    let unlooked := (opened projection mutations).run (events.filter (!·.isCurrent))
    let shown := projection.value watch.store.board
    watch.yielded.IsChain (· ≠ ·) ∧ (watch.stream.current watch.store).1 = shown ∧
      unlooked.yielded = watch.yielded ∧
      ∀ closed, (watch.stream.next watch.store closed).1 =
          (if watch.yielded.getLast? = some shown then if closed then .ended else .pending else .value shown) ∧
        (unlooked.stream.next unlooked.store closed).1 = (watch.stream.next watch.store closed).1 := by
  intro watch unlooked shown
  have start := faithful_opened projection mutations
  have faithful : watch.Faithful projection := start.run events
  obtain ⟨store, yielded⟩ := start.run_filter events
  refine ⟨start.isChain_run List.isChain_nil events, faithful.current.1, yielded, fun closed => ?_⟩
  have given : (watch.stream.next watch.store closed).1 = answer watch.yielded shown closed :=
    (faithful.next closed).1
  have alone : (unlooked.stream.next unlooked.store closed).1 =
      answer unlooked.yielded (projection.value unlooked.store.board) closed :=
    ((start.run _).next closed).1
  exact ⟨given, by rw [given, alone, store, yielded]⟩

/-- A fetch that has ended again before the stream is asked leaves it waiting, and the next one does not. -/
example :
    ((opened (View.projection (.ofContext .someLoading .latest)) [.register "ci" .latest]).run
      [.next false, .mutate (.startLoading "ci" .latest), .current, .mutate (.load "ci" .latest [] [] []),
        .next false, .mutate (.startLoading "ci" .latest), .next false]).yielded = [.flag false, .flag true] := by
  decide

end Watch

end ReviewChecks
