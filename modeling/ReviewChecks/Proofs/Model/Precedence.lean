import ReviewChecks.Proofs.Model.Frame

/-! # What comes before

The counts of signals and of publications only grow, and as long as a count stays the same, so does what it counts the
changes of. A reader that has seen the present count therefore knows the present value. `Model.precedes_move` and
`Model.precedes_run` say so of the host and the store of a model.
-/

namespace ReviewChecks

/-- A signal now and later: there may have been more changes, and without any it is the same. -/
structure Signal.Precedes {α : Type} (earlier later : Signal α) : Prop where
  changes : earlier.changes ≤ later.changes
  same : earlier.changes = later.changes → earlier = later

namespace Signal.Precedes

variable {α : Type}

theorem refl (signal : Signal α) : signal.Precedes signal :=
  ⟨Nat.le_refl _, fun _ => rfl⟩

theorem trans {first second third : Signal α} (left : first.Precedes second) (right : second.Precedes third) :
    first.Precedes third where
  changes := Nat.le_trans left.changes right.changes
  same equal := by
    have lower := left.changes
    have upper := right.changes
    exact (left.same (by omega)).trans (right.same (by omega))

theorem set [DecidableEq α] (signal : Signal α) (value : α) : signal.Precedes (signal.set value) := by
  unfold Signal.set
  split
  · exact .refl signal
  · exact ⟨Nat.le_succ _, fun equal => by dsimp only at equal; omega⟩

/-- A count that lies between that of an earlier signal and the present one tells that nothing has changed. -/
theorem eq_of_seen {earlier later : Signal α} (precedes : earlier.Precedes later) {seen : Nat}
    (bound : seen ≤ earlier.changes) (current : seen = later.changes) : earlier = later := by
  have grown := precedes.changes
  exact precedes.same (by omega)

end Signal.Precedes

/-- A host now and later, as far as pipelines follow it. -/
structure Host.Precedes (earlier later : Host) : Prop where
  changeNumber : earlier.changeNumber.Precedes later.changeNumber
  latestPatchset : earlier.latestPatchset.Precedes later.latestPatchset
  visibility : earlier.visibility.Precedes later.visibility

namespace Host.Precedes

theorem refl (host : Host) : host.Precedes host :=
  ⟨.refl _, .refl _, .refl _⟩

theorem trans {first second third : Host} (left : first.Precedes second) (right : second.Precedes third) :
    first.Precedes third where
  changeNumber := left.changeNumber.trans right.changeNumber
  latestPatchset := left.latestPatchset.trans right.latestPatchset
  visibility := left.visibility.trans right.visibility

theorem act (host : Host) (action : HostAction) : host.Precedes (host.act action) := by
  cases action with
  | setChangeNumber number => exact ⟨.set .., .refl _, .refl _⟩
  | setLatestPatchset patchset => exact ⟨.refl _, .set .., .refl _⟩
  | setVisibility visibility => exact ⟨.refl _, .refl _, .set ..⟩
  | loadChange change => exact ⟨.set .., .set .., .refl _⟩
  | setChange | setRouterPatchset | broadcastReload => exact ⟨.refl _, .refl _, .refl _⟩

end Host.Precedes

/-- A store now and later: there may have been more publications, and without any it is the same. -/
structure Store.Precedes (earlier later : Store) : Prop where
  published : earlier.published ≤ later.published
  same : earlier.published = later.published → earlier = later

namespace Store.Precedes

theorem refl (store : Store) : store.Precedes store :=
  ⟨Nat.le_refl _, fun _ => rfl⟩

theorem trans {first second third : Store} (left : first.Precedes second) (right : second.Precedes third) :
    first.Precedes third where
  published := Nat.le_trans left.published right.published
  same equal := by
    have lower := left.published
    have upper := right.published
    exact (left.same (by omega)).trans (right.same (by omega))

theorem apply (store : Store) (mutation : Mutation) : store.Precedes (store.apply mutation) := by
  unfold Store.apply
  cases published : store.publish? mutation with
  | none => exact .refl store
  | some next =>
    obtain ⟨replacement, _, rfl⟩ := Option.map_eq_some_iff.mp published
    exact ⟨Nat.le_succ _, fun equal => by simp only [Option.getD_some] at equal; omega⟩

theorem applyAll (store : Store) (mutations : List Mutation) : store.Precedes (store.applyAll mutations) := by
  induction mutations generalizing store with
  | nil => exact .refl store
  | cons mutation rest ih => exact (apply store mutation).trans (ih (store.apply mutation))

theorem eq_of_seen {earlier later : Store} (precedes : earlier.Precedes later) {seen : Nat}
    (bound : seen ≤ earlier.published) (current : seen = later.published) : earlier = later := by
  have grown := precedes.published
  exact precedes.same (by omega)

end Store.Precedes

/-- What a pipeline saw comes before what a model is like now. -/
structure Scene.Precedes (scene : Scene) (model : Model) : Prop where
  host : scene.host.Precedes model.host
  store : scene.store.Precedes model.store

namespace Model

theorem host_precedes_move (model : Model) (move : Move) : model.host.Precedes (model.move move).host := by
  rw [(model.moved move).host]
  cases move with
  | host action => exact .act model.host action
  | operation | answer | task | elapse => exact .refl model.host

theorem store_precedes_move (model : Model) (move : Move) : model.store.Precedes (model.move move).store := by
  rw [(model.moved move).store]
  exact .applyAll ..

end Model

/-- What precedes a model precedes it after any move. -/
theorem Scene.Precedes.move {scene : Scene} {model : Model} (precedes : scene.Precedes model) (move : Move) :
    scene.Precedes (model.move move) where
  host := precedes.host.trans (model.host_precedes_move move)
  store := precedes.store.trans (model.store_precedes_move move)

theorem Model.scene_precedes (model : Model) (pipeline : Pipeline) : (model.scene pipeline).Precedes model :=
  ⟨.refl _, .refl _⟩

end ReviewChecks
