import ReviewChecks.Model.Agenda
import ReviewChecks.Proofs.Model.Pin

/-! # Two changes at once

The router's and the latest patchset can both have changed before the following task looks at either of them, and it may
look at either first (`Agenda.mem_steps_iff`). Each look reads the values as they are then, and the looks have different
rules: the router's patchset is pinned unless it is the latest one, even while there is no latest one, but the loss of
the latest patchset drops every pin. The order of the two looks shows exactly where both rules apply
(`Model.followed_in_either_order`).
-/

namespace ReviewChecks.Model

variable {model : Model}

/-- What a look of the following task leaves alone, besides what it looks at. -/
private structure Looked (model next : Model) : Prop where
  host : next.host = model.host
  life : next.life = model.life

/-- A look at the router's patchset leaves a change of the latest one for the next look. -/
private theorem looked_router (held : model.life ≠ .dropped) (changed : model.routerChanged = true) :
    let next := model.move (.task .followRouter)
    Looked model next ∧ next.routerChanged = false ∧ next.latestChanged = model.latestChanged := by
  intro next
  have looked : next = { model with seenRouterPatchset := model.host.routerPatchset.changes }.setPatchset
      model.host.routerPatchset.value := by
    simp only [next, move, runTask, followRouter, changed, held, ↓reduceIte]
  rw [looked]
  exact ⟨⟨rfl, rfl⟩, by simp only [routerChanged, setPatchset, bne_self_eq_false, Bool.and_false], rfl⟩

/-- A look at the latest patchset leaves a change of the router's one for the next look. -/
private theorem looked_latest (held : model.life ≠ .dropped) (changed : model.latestChanged = true) :
    let next := model.move (.task .followLatest)
    Looked model next ∧ next.latestChanged = false ∧ next.routerChanged = model.routerChanged := by
  intro next
  have looked : next = { model with
      seenLatestPatchset := model.host.latestPatchset.changes
      store := model.store.apply (.normalizePin model.host.latestPatchset.value) } := by
    simp only [next, move, runTask, followLatest, changed, held, ↓reduceIte]
  rw [looked]
  exact ⟨⟨rfl, rfl⟩, by simp only [latestChanged, bne_self_eq_false, Bool.and_false], rfl⟩

/-- The task of a model that nobody holds any more ends at its next look and leaves the pin alone. -/
private theorem pin_follow_of_dropped (dropped : model.life = .dropped) {look : Task}
    (follows : look = .followRouter ∨ look = .followLatest) :
    (model.move (.task look)).life = .dropped ∧
      (model.move (.task look)).store.board.pin = model.store.board.pin := by
  rw [(model.moved (.task look)).life, pin_move]
  rcases follows with rfl | rfl <;> simp [lifeAfter, pinAfter, dropped]

/-- The router's patchset is looked at first: it is pinned, and dropped again if there is no latest patchset. -/
private theorem router_then_latest (held : model.life ≠ .dropped) (router : model.routerChanged = true)
    (latest : model.latestChanged = true) :
    let followed := model.run [.task .followRouter, .task .followLatest]
    followed.routerChanged = false ∧ followed.latestChanged = false ∧ followed.store.board.pin =
      if model.host.latestPatchset.value = none then none
      else normalized model.host.routerPatchset.value model.host.latestPatchset.value := by
  intro followed
  obtain ⟨first, handled, waiting⟩ := looked_router held router
  rw [latest] at waiting
  obtain ⟨_, settled, kept⟩ := looked_latest (first.life ▸ held) waiting
  refine ⟨kept.trans handled, settled, ?_⟩
  have pinned : followed.store.board.pin = Mutation.pinAfter
      (normalized model.host.routerPatchset.value model.host.latestPatchset.value)
      (.normalizePin model.host.latestPatchset.value) := by
    change ((model.move (.task .followRouter)).move (.task .followLatest)).store.board.pin = _
    rw [pin_move, pinAfter, if_pos ⟨waiting, first.life ▸ held⟩, first.host, pin_move, pinAfter,
      if_pos ⟨router, held⟩]
  rw [pinned, Mutation.pinAfter]
  cases newest : model.host.latestPatchset.value with
  | none => simp
  | some patchset =>
    have other : some patchset ≠ normalized model.host.routerPatchset.value (some patchset) := fun same =>
      normalized_ne same.symm rfl
    simp [other]

/-- The latest patchset is looked at first: whatever was pinned, the router's patchset is what is pinned now. -/
private theorem latest_then_router (held : model.life ≠ .dropped) (router : model.routerChanged = true)
    (latest : model.latestChanged = true) :
    let followed := model.run [.task .followLatest, .task .followRouter]
    followed.routerChanged = false ∧ followed.latestChanged = false ∧ followed.store.board.pin =
      normalized model.host.routerPatchset.value model.host.latestPatchset.value := by
  intro followed
  obtain ⟨first, handled, waiting⟩ := looked_latest held latest
  rw [router] at waiting
  obtain ⟨_, settled, kept⟩ := looked_router (first.life ▸ held) waiting
  refine ⟨settled, kept.trans handled, ?_⟩
  change ((model.move (.task .followLatest)).move (.task .followRouter)).store.board.pin = _
  rw [pin_move, pinAfter, if_pos ⟨waiting, first.life ▸ held⟩, first.host]

/-- With a change of the router's and a change of the latest patchset to look at, the following task may take either
first. It ends with the same pin in either order, the router's patchset unless that is the latest one; only if there is
no latest patchset any more but the router has one, the order shows: the pin is dropped if the router comes first, and
stays if it comes last. -/
theorem followed_in_either_order (model : Model) (router : model.routerChanged = true)
    (latest : model.latestChanged = true) :
    let routerFirst := model.run [.task .followRouter, .task .followLatest]
    let latestFirst := model.run [.task .followLatest, .task .followRouter]
    (.followRouter ∈ model.steps .follower ∧ .followLatest ∈ model.steps .follower) ∧
    (model.life ≠ .dropped →
      (routerFirst.routerChanged = false ∧ routerFirst.latestChanged = false ∧ routerFirst.store.board.pin =
        if model.host.latestPatchset.value = none then none
        else normalized model.host.routerPatchset.value model.host.latestPatchset.value) ∧
      latestFirst.routerChanged = false ∧ latestFirst.latestChanged = false ∧ latestFirst.store.board.pin =
        normalized model.host.routerPatchset.value model.host.latestPatchset.value) ∧
    (routerFirst.store.board.pin = latestFirst.store.board.pin ↔
      model.life ≠ .dropped → model.host.latestPatchset.value = none → model.host.routerPatchset.value = none) := by
  intro routerFirst latestFirst
  have either : .followRouter ∈ model.steps .follower ∧ .followLatest ∈ model.steps .follower := by
    simp [steps, Actor.tasks, isReady, router, latest]
  refine ⟨either, fun held => ⟨router_then_latest held router latest, latest_then_router held router latest⟩, ?_⟩
  by_cases dropped : model.life = .dropped
  · have one := pin_follow_of_dropped dropped (.inl rfl)
    have other := pin_follow_of_dropped dropped (.inr rfl)
    have kept : routerFirst.store.board.pin = latestFirst.store.board.pin :=
      ((pin_follow_of_dropped one.1 (.inr rfl)).2.trans one.2).trans
        ((pin_follow_of_dropped other.1 (.inl rfl)).2.trans other.2).symm
    exact iff_of_true kept fun held => (held dropped).elim
  · rw [(router_then_latest dropped router latest).2.2, (latest_then_router dropped router latest).2.2]
    cases newest : model.host.latestPatchset.value with
    | some patchset => simp
    | none => cases asked : model.host.routerPatchset.value <;> simp [normalized, dropped]

/-- The host shows a change at its third patchset, pinned to the first one by the address. -/
def pinningHost : Host where
  latestPatchset := ⟨some 3, 1⟩
  routerPatchset := ⟨some 1, 1⟩

/-- A new change loads at its second patchset, and the address asks for the first one again after it asked for
nothing. -/
theorem followed_in_either_order_renewed :
    let model := (create pinningHost {}).run
      [.host (.setRouterPatchset none), .host (.setRouterPatchset (some 1)), .host (.setLatestPatchset (some 2))]
    (model.routerChanged = true ∧ model.latestChanged = true) ∧
      (model.run [.task .followRouter, .task .followLatest]).store.board.pin =
        (model.run [.task .followLatest, .task .followRouter]).store.board.pin := by
  intro model
  have unread : model.routerChanged = true ∧ model.latestChanged = true := by decide
  exact ⟨unread, (followed_in_either_order model unread.1 unread.2).2.2.mpr fun _ gone => absurd gone (by decide)⟩

/-- The change is closed, and the address of the next one, which has not loaded, asks for a patchset: with the router
first nothing is pinned, with the latest patchset first that patchset is. -/
theorem not_followed_alike_unloaded :
    ¬ ∀ model : Model, model.routerChanged = true → model.latestChanged = true →
      (model.run [.task .followRouter, .task .followLatest]).store.board.pin =
        (model.run [.task .followLatest, .task .followRouter]).store.board.pin := by
  intro alike
  have same := alike ((create pinningHost {}).run
    [.host (.setLatestPatchset none), .host (.setRouterPatchset (some 2))]) (by decide) (by decide)
  revert same
  decide

end ReviewChecks.Model
