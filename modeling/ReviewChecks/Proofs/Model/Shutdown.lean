import ReviewChecks.Proofs.Model.Journal
import ReviewChecks.Proofs.Store.Pushes

/-! # After the shutdown

A model that is not running has no registrations, and no move brings one back (`Model.Retired`). So every pipeline that
takes a turn then finds itself cancelled, however much waits for it, and one that has not run yet evaluates its trigger
once without a consequence. What is left to change an entry is a pushed result (`Model.Retired.entries_run`), and
nothing is left to ask a provider (`Model.shutdown_final`).

The pin is not as safe. A shutdown does not end the task that follows patchsets by itself: it only makes the end one of
the things that this task may do next, in any order, so that it may pin or drop a patchset before it ends
(`Model.pin_after_shutdown`).
-/

namespace ReviewChecks

/-- Whether an effect is about a fetch that a provider was asked for: the request, its outcome, or a report of it. -/
def Effect.isOfFetch : Effect → Bool
  | .requested .. | .settled .. | .reported (.execution ..) | .reported (.error ..) => true
  | .evaluated .. | .abandoned .. | .reported (.actionTriggered ..) | .invoked _ | .noticed _ => false

namespace Pipeline

/-- A pipeline whose registration has gone has nothing to do with its provider, whatever it comes to in its step. -/
theorem isOfFetch_of_not_live {scene : Scene} (gone : scene.live = false) (pipeline : Pipeline) :
    ∀ effect ∈ (pipeline.step scene).effects, effect.isOfFetch = false := by
  intro effect member
  have course := pipeline.course_step scene
  generalize pipeline.step scene = step at course member
  cases course with
  | rests _ => cases member
  | starts _ => rcases of_mem_effects_fire member with ⟨_, _, rfl⟩ | ⟨_, rfl⟩ <;> rfl
  | cancels _ _ =>
    obtain ⟨_, rfl⟩ := exists_of_mem_abandonment member
    rfl
  | waits _ live _ | settles _ _ _ live _ _ | looks _ _ live _ _ _ | fires _ _ live _ _ _ =>
    rw [gone] at live
    cases live

end Pipeline

/-- The entries after some pushes. -/
def Entries.pushAll (entries : Entries) (pushes : List Push) : Entries :=
  pushes.foldl (fun entries push => push.edit.run entries) entries

theorem Entries.pushAll_append (entries : Entries) (pushes later : List Push) :
    entries.pushAll (pushes ++ later) = (entries.pushAll pushes).pushAll later :=
  List.foldl_append

theorem Store.entries_applyAll_pushes (store : Store) (pushes : List Push) (context : PatchsetContext) :
    ((store.applyAll (pushes.map Push.mutation)).board.map context).entries =
      (store.board.map context).entries.pushAll pushes := by
  induction pushes generalizing store with
  | nil => rfl
  | cons push rest ih =>
    exact (ih (store.apply push.mutation)).trans (congrArg (·.pushAll rest) (entries_apply_push store push context))

/-- The push that a move is. -/
def Move.push? : Move → Option Push
  | .operation (.updateResult plugin run result) => some ⟨plugin, run, result⟩
  | _ => none

namespace Model

/-- A model that does not run any more, and what it has left behind. -/
structure Retired (model : Model) : Prop where
  life : model.life ≠ .running
  registry : model.registry = []

variable {model : Model}

/-- No move takes a model back into its running life. -/
theorem life_move (stopped : model.life ≠ .running) (move : Move) : (model.move move).life ≠ .running := by
  rw [(model.moved move).life]
  unfold lifeAfter
  split
  · rw [if_neg stopped]
    exact stopped
  · exact Life.noConfusion
  · exact stopped

private theorem registry_move_eq_nil {move : Move} (nobody : model.registrantsAfter move = []) :
    (model.move move).registry = [] :=
  List.map_eq_nil_iff.mp ((model.moved move).registrants.trans nobody)

namespace Retired

theorem admits (retired : model.Retired) (plugin : String) : model.admits plugin = false := by
  simp [Model.admits, retired.life]

theorem isRegistered (retired : model.Retired) (plugin : String) : model.isRegistered plugin = false := by
  simp [Model.isRegistered, retired.registry]

theorem isLive (retired : model.Retired) (registration : Nat) : model.isLive registration = false := by
  simp [Model.isLive, retired.registry]

/-- No move brings a registration back. -/
theorem move (retired : model.Retired) (move : Move) : (model.move move).Retired where
  life := life_move retired.life move
  registry := by
    have none_left : model.registrants = [] := by rw [registrants, retired.registry, List.map_nil]
    refine registry_move_eq_nil ?_
    unfold registrantsAfter
    split
    · rw [if_neg (by simp [retired.admits]), none_left]
    · rw [none_left, List.filter_nil]
    · rw [if_neg retired.life, none_left]
    · rw [if_neg retired.life, none_left]
    · exact none_left

theorem run (retired : model.Retired) (moves : List Move) : (model.run moves).Retired := by
  induction moves generalizing model with
  | nil => exact retired
  | cons move rest ih => exact ih (retired.move move)

end Retired

/-- The move that ends the running life of a model ends all registrations. -/
theorem retired_move_of_running (running : model.life = .running) {move : Move}
    (stopped : (model.move move).life ≠ .running) : (model.move move).Retired where
  life := stopped
  registry := by
    refine registry_move_eq_nil ?_
    rw [(model.moved move).life] at stopped
    unfold lifeAfter at stopped
    split at stopped
    · exact if_pos running
    · exact if_pos running
    · exact absurd running stopped

/-- A model that has been shut down or dropped is retired. -/
theorem retired_of_not_running {host : Host} {config : ModelConfig} {moves : List Move}
    (stopped : ((create host config).run moves).life ≠ .running) : ((create host config).run moves).Retired := by
  induction moves using List.reverseRecOn with
  | nil => exact absurd rfl stopped
  | append_singleton moves move ih =>
    rw [run_concat] at stopped ⊢
    by_cases running : ((create host config).run moves).life = .running
    · exact retired_move_of_running running stopped
    · exact (ih running).move move

theorem retired_shutdown (host : Host) (config : ModelConfig) (moves : List Move) :
    ((create host config).run (moves ++ [.operation .shutdown])).Retired := by
  refine retired_of_not_running ?_
  rw [run_concat, (moved ..).life]
  unfold lifeAfter
  dsimp only
  split
  · exact Life.noConfusion
  next stopped => exact stopped

namespace Retired

/-- Nothing that happens from now on is about a fetch. -/
theorem isOfFetch_of_logged (retired : model.Retired) (move : Move) :
    ∀ effect ∈ model.logged move, effect.isOfFetch = false := by
  unfold logged
  split
  · split
    · simp
    · simp [Effect.isOfFetch]
  · split
    · exact Pipeline.isOfFetch_of_not_live (retired.isLive _) _
    · simp
  · split
    · split <;> simp [Effect.isOfFetch]
    · simp
  · simp

theorem filter_log_run (retired : model.Retired) (moves : List Move) :
    (model.run moves).log.filter Effect.isOfFetch = model.log.filter Effect.isOfFetch := by
  induction moves generalizing model with
  | nil => rfl
  | cons move rest ih =>
    have nothing : (model.logged move).reverse.filter Effect.isOfFetch = [] :=
      List.filter_eq_nil_iff.mpr fun effect member =>
        ne_true_of_eq_false (retired.isOfFetch_of_logged move effect (List.mem_reverse.mp member))
    refine (ih (retired.move move)).trans ?_
    rw [log_move, List.filter_append, nothing, List.nil_append]

/-- A pipeline's turn leaves the store alone. -/
theorem written_pipeline (retired : model.Retired) (index : Nat) : model.written (.task (.pipeline index)) = [] := by
  unfold written
  dsimp only
  split
  · exact if_neg (ne_true_of_eq_false (retired.isLive _))
  · rfl

/-- What a move still does to the entries of a context is to push a result to them. -/
theorem entries_move (retired : model.Retired) (move : Move) (context : PatchsetContext) :
    ((model.move move).store.board.map context).entries =
      (model.store.board.map context).entries.pushAll move.push?.toList := by
  rw [(model.moved move).store]
  cases move using Move.casesQuiet with
  | updateResult plugin run result => exact Store.entries_apply_push model.store ⟨plugin, run, result⟩ context
  | quiet move quiet =>
    have nothing : move.push? = none := by
      unfold Move.push?
      split
      · exact quiet.elim
      · rfl
    rw [← (model.moved move).store, (agrees_of_isQuiet model quiet).store, nothing]
    rfl
  | pipeline index =>
    rw [retired.written_pipeline index]
    rfl
  | register plugin provider settings =>
    rw [written, retired.admits]
    rfl
  | unregister plugin =>
    rw [written, retired.isRegistered]
    rfl
  | setPatchset patchset => exact Store.entries_apply_of_isAboutPin model.store (.setPin _) trivial context
  | followRouter =>
    unfold written
    dsimp only
    split
    · exact Store.entries_apply_of_isAboutPin model.store (.setPin _) trivial context
    · rfl
  | followLatest =>
    unfold written
    dsimp only
    split
    · exact Store.entries_apply_of_isAboutPin model.store (.normalizePin _) trivial context
    · rfl
  | shutdown | drop | host | answer => rfl

/-- The entries are those at the beginning but for the results that were pushed since. -/
theorem entries_run (retired : model.Retired) (moves : List Move) (context : PatchsetContext) :
    ((model.run moves).store.board.map context).entries =
      (model.store.board.map context).entries.pushAll (moves.filterMap Move.push?) := by
  induction moves generalizing model with
  | nil => rfl
  | cons move rest ih =>
    refine (ih (retired.move move)).trans ?_
    rw [entries_move retired, ← Entries.pushAll_append, List.filterMap_cons]
    cases move.push? <;> rfl

end Retired

/-- What stays as it was when a model was shut down, whatever came later. -/
structure StaysShutDown (atShutdown : Model) (later : List Move) : Prop where
  /-- No provider was asked, and no outcome of a fetch was handled or reported. -/
  fetches : (atShutdown.run later).log.filter Effect.isOfFetch = atShutdown.log.filter Effect.isOfFetch
  /-- No pipeline can write to the store. -/
  idle : ∀ index, ((atShutdown.run later).move (.task (.pipeline index))).store = (atShutdown.run later).store
  /-- The entries are as they were but for the results that were pushed since. -/
  entries : ∀ context, ((atShutdown.run later).store.board.map context).entries =
    ((atShutdown.store.applyAll ((later.filterMap Move.push?).map Push.mutation)).board.map context).entries
  registry : (atShutdown.run later).registry = []
  register : ∀ plugin provider settings,
    (atShutdown.run later).perform (.register plugin provider settings) = (.refused .shutdown, atShutdown.run later)
  unregister : ∀ plugin,
    (atShutdown.run later).perform (.unregister plugin) = (.refused (.unknownPlugin plugin), atShutdown.run later)
  reload : ∀ plugin,
    (atShutdown.run later).perform (.reload plugin) = (.refused (.unknownPlugin plugin), atShutdown.run later)
  shutdown : (atShutdown.run later).perform .shutdown = (.done, atShutdown.run later)

/-- A shutdown is final, whatever was under way, whatever is done later and in whichever order tasks take steps. -/
theorem shutdown_final (host : Host) (config : ModelConfig) (moves later : List Move) :
    StaysShutDown ((create host config).run (moves ++ [.operation .shutdown])) later := by
  have retired := retired_shutdown host config moves
  generalize (create host config).run (moves ++ [.operation .shutdown]) = atShutdown at retired
  have still := retired.run later
  constructor
  · exact retired.filter_log_run later
  · intro index
    rw [(moved ..).store, still.written_pipeline index]
    rfl
  · intro context
    rw [retired.entries_run, Store.entries_applyAll_pushes]
  · exact still.registry
  · intro plugin provider settings
    simp only [perform, accept, register, ne_eq, still.life, not_false_eq_true, ↓reduceIte]
  · intro plugin
    simp only [perform, accept, unregister_of_not_isRegistered (still.isRegistered plugin)]
  · intro plugin
    simp only [perform, accept, Model.reload, still.isRegistered plugin, Bool.false_eq_true, ↓reduceIte]
  · simp only [perform, shutdown, still.life, ↓reduceIte]

end Model

end ReviewChecks
