import ReviewChecks.Proofs.Pipeline.Evaluations

/-! # Ticks keep their distance

A pipeline with polling plans its next tick a period after it starts, and after each tick one or more periods later. So
it works on no more ticks than periods have passed (`Pipeline.OnSchedule`), and without polling on none.
-/

namespace ReviewChecks

namespace Pipeline

/-- Once it runs, a pipeline that has worked on some ticks plans the next one after as many periods and one more. -/
structure OnSchedule (now ticks : Nat) (pipeline : Pipeline) : Prop where
  unstarted : pipeline.phase = .created → ticks = 0
  unpolled : pipeline.period = none → ticks = 0 ∧ (pipeline.phase ≠ .created → pipeline.nextTick = none)
  polled : ∀ period, pipeline.period = some period → period * ticks ≤ now ∧
    (pipeline.phase ≠ .created → ∃ tick, pipeline.nextTick = some tick ∧ period * (ticks + 1) ≤ tick)

/-- The next tick lies at least a period ahead of the one before. -/
theorem add_le_tickAfter (now tick period : Nat) : tick + period ≤ tickAfter now tick period :=
  Nat.add_le_add_left (Nat.le_mul_of_pos_right period (Nat.succ_pos _)) tick

variable {scene : Scene} {pipeline : Pipeline} {now ticks : Nat}

theorem onSchedule_of_created (now : Nat) (new : pipeline.phase = .created) : pipeline.OnSchedule now 0 where
  unstarted _ := rfl
  unpolled _ := ⟨rfl, fun ran => absurd new ran⟩
  polled _ _ := ⟨Nat.zero_le _, fun ran => absurd new ran⟩

theorem onSchedule_started (scene : Scene) (pipeline : Pipeline) :
    (pipeline.started scene).OnSchedule scene.now 0 where
  unstarted _ := rfl
  unpolled unpolled := ⟨rfl, fun _ => by rw [started, show pipeline.period = none from unpolled]; rfl⟩
  polled period polls := by
    refine ⟨Nat.zero_le _, fun _ => ⟨scene.now + period, ?_, ?_⟩⟩
    · rw [started, show pipeline.period = some period from polls]
      rfl
    · rw [Nat.zero_add, Nat.mul_one]
      exact Nat.le_add_left ..

namespace OnSchedule

theorem elapse (onSchedule : pipeline.OnSchedule now ticks) {later : Nat} (passes : now ≤ later) :
    pipeline.OnSchedule later ticks where
  unstarted := onSchedule.unstarted
  unpolled := onSchedule.unpolled
  polled period polls := ⟨Nat.le_trans (onSchedule.polled period polls).1 passes, (onSchedule.polled period polls).2⟩

/-- Only the period, the plan and whether the pipeline has run matter. -/
theorem of_fields {base : Pipeline} (onSchedule : base.OnSchedule now ticks) (period : pipeline.period = base.period)
    (nextTick : pipeline.nextTick = base.nextTick) (started : pipeline.phase = .created ↔ base.phase = .created) :
    pipeline.OnSchedule now ticks where
  unstarted new := onSchedule.unstarted (started.mp new)
  unpolled := by
    rw [period, nextTick, ne_eq, started]
    exact onSchedule.unpolled
  polled := by
    rw [period, nextTick, ne_eq, started]
    exact onSchedule.polled

/-- Working on a tick that has come plans the next one. -/
theorem looked_tick (onSchedule : pipeline.OnSchedule scene.now ticks) (running : pipeline.phase = .running)
    (due : Branch.tick.Pending scene pipeline) : (pipeline.looked scene .tick).OnSchedule scene.now (ticks + 1) := by
  have ran : pipeline.phase ≠ .created := by simp [running]
  obtain ⟨tick, planned, passed⟩ := due
  refine ⟨fun new => absurd new ran, fun unpolled => ?_, fun period polls => ?_⟩
  · cases ((onSchedule.unpolled unpolled).2 ran).symm.trans planned
  · obtain ⟨next, plan, ahead⟩ := (onSchedule.polled period polls).2 ran
    obtain rfl := Option.some.inj (planned.symm.trans plan)
    refine ⟨Nat.le_trans ahead passed, fun _ => ⟨tickAfter scene.now tick period, ?_, ?_⟩⟩
    · rw [looked, planned, show pipeline.period = some period from polls]
      rfl
    · exact Nat.le_trans (Nat.add_le_add_right ahead period) (add_le_tickAfter ..)

theorem looked (onSchedule : pipeline.OnSchedule scene.now ticks) (branch : Branch)
    (running : pipeline.phase = .running) (pending : branch.Pending scene pipeline) :
    (pipeline.looked scene branch).OnSchedule scene.now (ticks + (decide (branch = .tick)).toNat) := by
  cases branch with
  | tick => exact onSchedule.looked_tick running pending
  | cancelled | settled | changeNumber | latestPatchset | published | reload | visibility =>
    exact onSchedule.of_fields rfl rfl .rfl

/-- A step keeps to the schedule. -/
theorem step (onSchedule : pipeline.OnSchedule scene.now ticks) :
    (pipeline.step scene).pipeline.OnSchedule scene.now (ticks + (pipeline.polls scene).toNat) := by
  obtain ⟨base, notes, inFlight, phase, same, ends⟩ := notes_step scene pipeline
  rw [same]
  generalize (pipeline.step scene).evaluations = evaluations at notes
  generalize pipeline.polls scene = polls at notes ⊢
  have kept : base.OnSchedule scene.now (ticks + polls.toNat) ∧ base.phase ≠ .created := by
    cases notes with
    | nothing ran => exact ⟨onSchedule, ran⟩
    | everything new =>
      rw [onSchedule.unstarted new]
      exact ⟨onSchedule_started scene pipeline, fun created => nomatch created⟩
    | signal branch running _ pending =>
      refine ⟨onSchedule.looked branch running pending, ?_⟩
      rw [looked_phase, running]
      exact fun created => nomatch created
  refine kept.1.of_fields rfl rfl ⟨fun created => ?_, fun created => absurd created kept.2⟩
  rcases ends with rfl | rfl
  · exact created
  · cases created

end OnSchedule

end Pipeline

end ReviewChecks
