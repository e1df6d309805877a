import ReviewChecks.Proofs.Model.Growth
import ReviewChecks.Proofs.Model.Journal
import ReviewChecks.Proofs.Pipeline.History

/-! # Relayed reloads

A model that runs has a task that reads the host's requests to reload everything and passes each on to whoever is
registered. It has never read more than was sent (`Model.Listens`), and whenever it reads on, be it that it missed some,
it requests a reload of every registration (`Model.Relays.step`). A request is thus unread or has been passed on after
it was sent (`Model.broadcasts_relayed`), and however far the task is behind, it has soon read everything
(`Model.hasUnreadReloads_of_steps`).
-/

namespace ReviewChecks

namespace Broadcast

theorem receive?_eq_none_iff {capacity sent read : Nat} : receive? capacity sent read = none ↔ sent ≤ read := by
  unfold receive?
  split_ifs with nothing lagged
  · exact iff_of_true rfl nothing
  · exact iff_of_false nofun nothing
  · exact iff_of_false nofun nothing

/-- A reader that gets something comes further, and as far as what is kept reaches back. -/
theorem read_of_receive? {capacity sent read next : Nat} {delivery : Delivery Nat}
    (received : receive? capacity sent read = some (delivery, next)) :
    read < next ∧ next ≤ sent ∧ sent ≤ next + capacity := by
  unfold receive? at received
  split_ifs at received with nothing lagged
  · obtain ⟨rfl, rfl⟩ := Prod.mk.inj (Option.some.inj received)
    omega
  · obtain ⟨rfl, rfl⟩ := Prod.mk.inj (Option.some.inj received)
    omega

end Broadcast

namespace Model

variable {model : Model}

/-- Whether there is something to read for the task that passes requests to reload on. -/
def hasUnreadReloads (model : Model) : Bool :=
  (Broadcast.receive? Broadcast.reloadCapacity model.host.reloads model.reloadsRead).isSome

theorem hasUnreadReloads_eq_false_iff : model.hasUnreadReloads = false ↔ model.host.reloads ≤ model.reloadsRead := by
  rw [hasUnreadReloads, Option.isSome_eq_false_iff, Option.isNone_iff_eq_none, Broadcast.receive?_eq_none_iff]

/-- The task of a running model has something to read. -/
structure Relays (model : Model) : Prop where
  running : model.life = .running
  follows : model.followsReloads = true
  unread : model.hasUnreadReloads = true

/-- In its next step the task reads on, and requests a reload of every registration. -/
theorem Relays.step (relays : model.Relays) :
    ∃ read, model.reloadsRead < read ∧ read ≤ model.host.reloads ∧
      model.host.reloads ≤ read + Broadcast.reloadCapacity ∧
      model.move (.task .relayReload) = { model with reloadsRead := read }.reloadAll := by
  obtain ⟨⟨delivery, read⟩, received⟩ := Option.isSome_iff_exists.mp relays.unread
  obtain ⟨further, sent, kept⟩ := Broadcast.read_of_receive? received
  refine ⟨read, further, sent, kept, ?_⟩
  simp only [move, runTask, relayReload, relays.follows, received, relays.running, reduceCtorEq, ↓reduceIte]

theorem reloadsOf_reloadAll {number : Nat} (live : model.isLive number = true) :
    model.reloadAll.reloadsOf number = model.reloadsOf number + 1 := by
  obtain ⟨first, found⟩ : ∃ first, model.registry.find? (·.number = number) = some first :=
    Option.isSome_iff_exists.mp (by rwa [List.find?_isSome, ← List.any_eq_true])
  have after : model.reloadAll.registry.find? (·.number = number) =
      some { first with reloads := first.reloads + 1 } := by
    simp only [reloadAll, reloadWhere, ↓reduceIte, List.find?_map, Function.comp_def, found, Option.map_some]
  rw [reloadsOf, reloadsOf, after, found]
  rfl

theorem Relays.reloadsOf (relays : model.Relays) {number : Nat} (live : model.isLive number = true) :
    (model.move (.task .relayReload)).reloadsOf number = model.reloadsOf number + 1 := by
  obtain ⟨read, _, _, _, step⟩ := relays.step
  rw [step]
  exact @reloadsOf_reloadAll { model with reloadsRead := read } number live

theorem read_of_not_relays (running : model.life = .running) (follows : model.followsReloads = true)
    (idle : ¬ model.Relays) : model.host.reloads ≤ model.reloadsRead :=
  hasUnreadReloads_eq_false_iff.mp (Bool.eq_false_iff.mpr fun unread => idle ⟨running, follows, unread⟩)

/-- Without anything to read the task changes nothing. -/
theorem relayReload_of_not_relays (running : model.life = .running) (idle : ¬ model.Relays) :
    model.move (.task .relayReload) = model := by
  by_cases follows : model.followsReloads = true
  · have nothing : Broadcast.receive? Broadcast.reloadCapacity model.host.reloads model.reloadsRead = none := by
      by_contra unread
      exact idle ⟨running, follows, Option.isSome_iff_ne_none.mpr unread⟩
    simp only [move, runTask, relayReload, nothing, ite_self]
  · exact if_neg follows

/-- The task runs, and has not read more than was sent. -/
structure Listens (model : Model) : Prop where
  follows : model.followsReloads = true
  sent : model.reloadsRead ≤ model.host.reloads

/-- While a model runs, its task neither ends nor reads anything but in its own steps. -/
theorem listening_of_ne (running : model.life = .running) {move : Move} (other : move ≠ .task .relayReload) :
    (model.move move).followsReloads = model.followsReloads ∧
      (model.move move).reloadsRead = model.reloadsRead := by
  have kept (aside : ¬ move.Looks) := Prod.mk.inj (congrArg (·.2) (model.sights_move aside))
  cases move with
  | operation | host | elapse | answer => exact kept not_false
  | task task =>
    cases task with
    | pipeline | action => exact kept not_false
    | relayReload => exact absurd rfl other
    | followRouter =>
      simp only [Model.move, runTask, followRouter]
      split
      · split <;> exact ⟨rfl, rfl⟩
      · exact ⟨rfl, rfl⟩
    | followLatest =>
      simp only [Model.move, runTask, followLatest]
      split
      · split <;> exact ⟨rfl, rfl⟩
      · exact ⟨rfl, rfl⟩
    | stopFollowing =>
      simp only [Model.move, runTask]
      split <;> exact ⟨rfl, rfl⟩
    | stopRelaying =>
      simp only [Model.move, runTask, running, ↓reduceIte, and_self]

/-- Requests of the host to reload everything only become more. -/
theorem hostReloads_le_move (model : Model) (move : Move) : model.host.reloads ≤ (model.move move).host.reloads := by
  rw [(model.moved move).host]
  unfold hostAfter
  split
  next action =>
    cases action with
    | broadcastReload => exact Nat.le_succ _
    | setChangeNumber | setLatestPatchset | setChange | setRouterPatchset | setVisibility | loadChange =>
      exact Nat.le_refl _
  next => exact Nat.le_refl _

theorem hostReloads_le_run (model : Model) (moves : List Move) :
    model.host.reloads ≤ (model.run moves).host.reloads := by
  induction moves generalizing model with
  | nil => exact Nat.le_refl _
  | cons move rest ih => exact Nat.le_trans (model.hostReloads_le_move move) (ih (model.move move))

theorem Listens.move (listens : model.Listens) (running : model.life = .running) (move : Move) :
    (model.move move).Listens := by
  by_cases own : move = .task .relayReload
  · subst own
    by_cases relays : model.Relays
    · obtain ⟨read, _, sent, _, step⟩ := relays.step
      rw [step]
      exact ⟨listens.follows, sent⟩
    · rwa [relayReload_of_not_relays running relays]
  · obtain ⟨follows, read⟩ := listening_of_ne running own
    refine ⟨follows.trans listens.follows, ?_⟩
    rw [read]
    exact Nat.le_trans listens.sent (model.hostReloads_le_move move)

theorem listens_run (host : Host) (config : ModelConfig) (moves : List Move)
    (running : ((create host config).run moves).life = .running) : ((create host config).run moves).Listens := by
  induction moves using List.reverseRecOn with
  | nil => exact ⟨rfl, Nat.le_refl _⟩
  | append_singleton moves move ih =>
    rw [run_concat] at running ⊢
    have ran := running_of_move running
    exact (ih ran).move ran move

/-- What the task has read in some moves it has passed on in one of its steps among them. -/
theorem exists_relay {mark : Nat} {moves : List Move} (running : (model.run moves).life = .running)
    (unread : model.reloadsRead < mark) (read : mark ≤ (model.run moves).reloadsRead) :
    ∃ before after, moves = before ++ .task .relayReload :: after ∧ (model.run before).Relays := by
  induction moves generalizing model with
  | nil => exact absurd read (Nat.not_le.mpr unread)
  | cons move rest ih =>
    by_cases first : mark ≤ (model.move move).reloadsRead
    · -- this is the move that reads past the mark, which no other than a step of the task can do
      have further : (model.move move).reloadsRead ≠ model.reloadsRead :=
        Nat.ne_of_gt (Nat.lt_of_lt_of_le unread first)
      have ran : model.life = .running := running_of_run running
      obtain rfl : move = .task .relayReload := by
        by_contra other
        exact further (listening_of_ne ran other).2
      refine ⟨[], rest, rfl, ?_⟩
      by_contra idle
      exact further (congrArg reloadsRead (relayReload_of_not_relays ran idle))
    · obtain ⟨before, after, rfl, relays⟩ := ih running (Nat.not_le.mp first) read
      exact ⟨move :: before, after, rfl, relays⟩

/-- After a step of the task there is less to read, if there was anything, and no more than is kept. -/
theorem relayReload_closer (running : model.life = .running) (follows : model.followsReloads = true) :
    let next := model.move (.task .relayReload)
    next.life = .running ∧ next.followsReloads = true ∧
      next.host.reloads ≤ next.reloadsRead + Broadcast.reloadCapacity ∧
      ∀ count, model.host.reloads ≤ model.reloadsRead + (count + 1) → next.host.reloads ≤ next.reloadsRead + count := by
  by_cases relays : model.Relays
  · obtain ⟨read, further, _, kept, step⟩ := relays.step
    rw [step]
    refine ⟨running, follows, kept, fun count near => ?_⟩
    change model.host.reloads ≤ read + count
    omega
  · have all := read_of_not_relays running follows relays
    rw [relayReload_of_not_relays running relays]
    exact ⟨running, follows, Nat.le_add_right_of_le all, fun _ _ => Nat.le_add_right_of_le all⟩

theorem read_of_steps {count : Nat} (running : model.life = .running) (follows : model.followsReloads = true)
    (near : model.host.reloads ≤ model.reloadsRead + count) :
    (model.run (List.replicate count (.task .relayReload))).hasUnreadReloads = false := by
  induction count generalizing model with
  | zero => exact hasUnreadReloads_eq_false_iff.mpr near
  | succ count ih =>
    obtain ⟨runs, still, _, closer⟩ := relayReload_closer running follows
    rw [List.replicate_succ, run_cons]
    exact ih runs still (closer count near)

/-- However far the task has fallen behind, it has read everything after one step more than is kept for it. -/
theorem hasUnreadReloads_of_steps (running : model.life = .running) (follows : model.followsReloads = true) :
    (model.run (List.replicate (Broadcast.reloadCapacity + 1) (.task .relayReload))).hasUnreadReloads = false := by
  obtain ⟨runs, still, near, _⟩ := relayReload_closer running follows
  rw [List.replicate_succ, run_cons]
  exact read_of_steps runs still near

/-- Among some moves the task requests a reload of a registration. -/
def RelaysTo (model : Model) (moves : List Move) (number : Nat) : Prop :=
  ∃ before after, moves = before ++ .task .relayReload :: after ∧
    (model.run (before ++ [.task .relayReload])).reloadsOf number = (model.run before).reloadsOf number + 1

/-- What is unread before some moves and read after them has been passed on to every registration that stood before them
and still stands. -/
theorem relaysTo_of_read (roster : model.Roster) (enrolment : model.Enrolment) {mark number : Nat} {moves : List Move}
    (running : (model.run moves).life = .running) (unread : model.reloadsRead < mark)
    (read : mark ≤ (model.run moves).reloadsRead) (stood : model.isLive number = true)
    (stands : (model.run moves).isLive number = true) :
    model.RelaysTo moves number ∧ model.reloadsOf number < (model.run moves).reloadsOf number := by
  obtain ⟨before, after, rfl, relays⟩ := exists_relay running unread read
  obtain ⟨registrant, enrolled, rfl⟩ := isLive_iff.mp stood
  have made := roster.registrants registrant enrolled
  have still : registrant.2 < (model.run before).registered := Nat.lt_of_lt_of_le made (model.registered_le_run before)
  have later : registrant.2 < ((model.run before).move (.task .relayReload)).registered :=
    Nat.lt_of_lt_of_le still ((model.run before).registered_le_run [.task .relayReload])
  have senderRoster := roster.run before
  have senderEnrolment := enrolment.run roster before
  rw [run_append] at stands ⊢
  -- who stands at the end stood at the step that passes the request on, and from there back to the beginning
  obtain ⟨told, more⟩ := stands_of_run (senderRoster.move _) (senderEnrolment.move senderRoster _) later stands
  have live := isLive_of_move still told
  have one := relays.reloadsOf live
  obtain ⟨_, fewer⟩ := stands_of_run roster enrolment made live
  refine ⟨⟨before, after, rfl, ?_⟩, ?_⟩
  · rw [run_concat]
    exact one
  · calc
      model.reloadsOf registrant.2 ≤ (model.run before).reloadsOf registrant.2 := fewer
      _ < ((model.run before).move (.task .relayReload)).reloadsOf registrant.2 := one ▸ Nat.lt_succ_self _
      _ ≤ ((model.run before).run (.task .relayReload :: after)).reloadsOf registrant.2 := more

/-- The task of a model that runs has not ended, and is never more than a few steps from having read everything. Once it
has, each of the host's requests to reload everything has been passed on after it was sent, to every registration that
stood then and still stands. -/
theorem broadcasts_relayed (host : Host) (config : ModelConfig) (moves : List Move)
    (running : ((create host config).run moves).life = .running) :
    let last := (create host config).run moves
    last.followsReloads = true ∧
    (last.run (List.replicate (Broadcast.reloadCapacity + 1) (.task .relayReload))).hasUnreadReloads = false ∧
    (last.hasUnreadReloads = false → ∀ earlier later, moves = earlier ++ .host .broadcastReload :: later →
      let broadcast := (create host config).run (earlier ++ [.host .broadcastReload])
      ∀ number, broadcast.isLive number = true → last.isLive number = true →
        broadcast.RelaysTo later number ∧ broadcast.reloadsOf number < last.reloadsOf number) := by
  intro last
  have follows := (listens_run host config moves running).follows
  refine ⟨follows, hasUnreadReloads_of_steps running follows, ?_⟩
  rintro read earlier later rfl broadcast number stood stands
  have split : last = broadcast.run later := by
    rw [← run_append, List.append_assoc]
    rfl
  have ran : (broadcast.run later).life = .running := split ▸ (show last.life = .running from running)
  have unread : broadcast.reloadsRead < broadcast.host.reloads := by
    have sender : broadcast = ((create host config).run earlier).move (.host .broadcastReload) := run_concat ..
    have before := running_of_run ran
    rw [sender] at before ⊢
    exact Nat.lt_succ_of_le (listens_run host config earlier (running_of_move before)).sent
  have all : broadcast.host.reloads ≤ (broadcast.run later).reloadsRead :=
    Nat.le_trans (broadcast.hostReloads_le_run later) (hasUnreadReloads_eq_false_iff.mp (split ▸ read))
  rw [split] at stands ⊢
  have roster := (roster_create host config).run (earlier ++ [.host .broadcastReload])
  have enrolment := enrolment_run host config (earlier ++ [.host .broadcastReload])
  exact relaysTo_of_read roster enrolment ran unread all stood stands

/-- After more broadcasts than are kept, one of two providers leaves and returns. -/
def burstMoves : List Move :=
  let provider : Provider := fun _ _ _ => .never
  [.operation (.register "ci" provider none), .operation (.register "linter" provider none)] ++
    List.replicate 20 (.host .broadcastReload) ++
    [.operation (.unregister "linter"), .operation (.register "linter" provider none)]

/-- The steps in which the task reads what is kept of the broadcasts. -/
def catchingUp : List Move :=
  List.replicate (Broadcast.reloadCapacity + 1) (.task .relayReload)

/-- The last of the broadcasts reaches both providers, though the first ones are missed. -/
theorem broadcasts_relayed_burst :
    let last := (create {} {}).run (burstMoves ++ .host .broadcastReload :: catchingUp)
    let broadcast := (create {} {}).run (burstMoves ++ [.host .broadcastReload])
    Broadcast.receive? Broadcast.reloadCapacity broadcast.host.reloads broadcast.reloadsRead = some (.lagged 5, 5) ∧
      last.followsReloads = true ∧ broadcast.RelaysTo catchingUp 0 ∧ broadcast.RelaysTo catchingUp 2 := by
  intro last broadcast
  obtain ⟨_, caughtUp, _⟩ := broadcasts_relayed {} {} (burstMoves ++ [.host .broadcastReload]) (by decide)
  rw [← run_append, List.append_assoc] at caughtUp
  obtain ⟨follows, _, relayed⟩ :=
    broadcasts_relayed {} {} (burstMoves ++ .host .broadcastReload :: catchingUp) (by decide)
  have told := relayed caughtUp burstMoves catchingUp rfl
  exact ⟨by decide, follows, (told 0 (by decide) (by decide)).1, (told 2 (by decide) (by decide)).1⟩

end Model

end ReviewChecks
