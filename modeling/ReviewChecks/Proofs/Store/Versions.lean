import ReviewChecks.Proofs.Board.Locality

/-! # Versions tell entries apart

The entries of a context get a new version whenever they are replaced and at no other time. A version says which
context it belongs to and which publication put it there (`EntryMap.versionAt`), so that no version ever returns: two
versions read off a store at two times are equal exactly when they were read off the same context and its entries have
not been replaced in between (`Store.version_eq_iff`), and then the entries are the same ones
(`Store.map_applyAll_of_keeps`).
-/

namespace ReviewChecks

/-- The context whose entries are shown for a context. -/
def Board.shown (board : Board) : PatchsetContext → PatchsetContext
  | .latest => .latest
  | .selected => if board.pin.isSome then .selected else .latest

theorem Board.view_eq_map_shown (board : Board) (context : PatchsetContext) :
    board.view context = board.map (board.shown context) := by
  cases context with
  | latest => rfl
  | selected =>
    change (if board.pin.isSome then board.selected else board.latest) =
      board.map (if board.pin.isSome then .selected else .latest)
    split <;> rfl

/-- The version of the entries that the publication of a number puts in a context. -/
def EntryMap.versionAt : PatchsetContext → Nat → Nat
  | .latest, stamp => 2 * stamp
  | .selected, stamp => 2 * stamp + 1

theorem EntryMap.versionAt_inj {context other : PatchsetContext} {stamp late : Nat}
    (same : versionAt context stamp = versionAt other late) : context = other ∧ stamp = late := by
  cases context <;> cases other <;> simp only [versionAt] at same <;> constructor <;> first | rfl | omega

namespace Store

/-- The entries that a mutation puts in a context; none when it leaves those there are. -/
def renewed? (store : Store) (context : PatchsetContext) (mutation : Mutation) : Option Entries :=
  (mutation.replacement? store.board).bind (·.entries? context)

/-- Whether some mutations leave the entries of a context in their place. -/
def keeps (context : PatchsetContext) : Store → List Mutation → Bool
  | _, [] => true
  | store, mutation :: rest => (store.renewed? context mutation).isNone && keeps context (store.apply mutation) rest

/-- Entries are replaced as a whole, with the version of the publication that does so. -/
theorem map_apply (store : Store) (mutation : Mutation) (context : PatchsetContext) :
    (store.apply mutation).board.map context =
      ((store.renewed? context mutation).map fun entries =>
        ⟨EntryMap.versionAt context (store.published + 1), entries⟩).getD (store.board.map context) := by
  unfold apply publish? renewed?
  cases mutation.replacement? store.board with
  | none => rfl
  | some replacement => cases context <;> rfl

theorem published_le_apply (store : Store) (mutation : Mutation) :
    store.published ≤ (store.apply mutation).published := by
  unfold apply publish?
  cases mutation.replacement? store.board with
  | none => exact Nat.le_refl _
  | some replacement => exact Nat.le_succ _

theorem published_apply_of_renewed {store : Store} {mutation : Mutation} {context : PatchsetContext}
    {entries : Entries} (renewed : store.renewed? context mutation = some entries) :
    (store.apply mutation).published = store.published + 1 := by
  obtain ⟨replacement, comes, _⟩ := Option.bind_eq_some_iff.mp renewed
  simp only [apply, publish?, comes, Option.map_some, Option.getD_some]

/-- The entries of each context have the version of a publication that there has been. -/
def Numbered (store : Store) : Prop :=
  ∀ context, ∃ stamp ≤ store.published, (store.board.map context).version = EntryMap.versionAt context stamp

theorem numbered_empty : Numbered {} := by
  intro context
  exact ⟨0, Nat.le_refl 0, by cases context <;> rfl⟩

theorem Numbered.apply {store : Store} (numbered : store.Numbered) (mutation : Mutation) :
    (store.apply mutation).Numbered := by
  intro context
  rw [map_apply]
  cases renewed : store.renewed? context mutation with
  | none =>
    obtain ⟨stamp, bound, version⟩ := numbered context
    exact ⟨stamp, Nat.le_trans bound (published_le_apply store mutation), version⟩
  | some entries => exact ⟨store.published + 1, Nat.le_of_eq (published_apply_of_renewed renewed).symm, rfl⟩

theorem Numbered.applyAll {store : Store} (numbered : store.Numbered) (mutations : List Mutation) :
    (store.applyAll mutations).Numbered := by
  induction mutations generalizing store with
  | nil => exact numbered
  | cons mutation rest ih => exact ih (numbered.apply mutation)

theorem map_applyAll_of_keeps {store : Store} {mutations : List Mutation} {context : PatchsetContext}
    (kept : store.keeps context mutations) :
    (store.applyAll mutations).board.map context = store.board.map context := by
  induction mutations generalizing store with
  | nil => rfl
  | cons mutation rest ih =>
    obtain ⟨first, later⟩ := Bool.and_eq_true_iff.mp kept
    refine (ih later).trans ?_
    rw [map_apply, Option.isNone_iff_eq_none.mp first]
    rfl

/-- Entries that have been replaced have the version of a publication that was still to come. -/
theorem version_applyAll_of_not_keeps {store : Store} {mutations : List Mutation} {context : PatchsetContext}
    (replaced : ¬ store.keeps context mutations) :
    ∃ stamp, store.published < stamp ∧
      ((store.applyAll mutations).board.map context).version = EntryMap.versionAt context stamp := by
  induction mutations generalizing store with
  | nil => exact absurd rfl replaced
  | cons mutation rest ih =>
    by_cases later : (store.apply mutation).keeps context rest
    · -- the first mutation is the last one that replaces them
      cases renewed : store.renewed? context mutation with
      | none => exact absurd (by rw [keeps, renewed, later]; rfl) replaced
      | some entries =>
        refine ⟨store.published + 1, Nat.lt_succ_self _, ?_⟩
        change (((store.apply mutation).applyAll rest).board.map context).version = _
        rw [map_applyAll_of_keeps later, map_apply, renewed]
        rfl
    · obtain ⟨stamp, bound, version⟩ := ih later
      exact ⟨stamp, Nat.lt_of_le_of_lt (published_le_apply store mutation) bound, version⟩

/-- The entries of a context and those that a context has later on have one version exactly when it is the same context
and the entries have stayed. -/
theorem version_eq_iff {store : Store} (numbered : store.Numbered) (mutations : List Mutation)
    (context later : PatchsetContext) :
    ((store.applyAll mutations).board.map later).version = (store.board.map context).version ↔
      later = context ∧ store.keeps context mutations := by
  obtain ⟨stamp, bound, version⟩ := numbered context
  by_cases kept : store.keeps later mutations
  · rw [map_applyAll_of_keeps kept]
    refine ⟨fun same => ?_, fun ⟨same, _⟩ => by rw [same]⟩
    obtain ⟨own, _, ownVersion⟩ := numbered later
    obtain ⟨rfl, _⟩ := EntryMap.versionAt_inj (ownVersion.symm.trans (same.trans version))
    exact ⟨rfl, kept⟩
  · obtain ⟨fresh, after, freshVersion⟩ := version_applyAll_of_not_keeps kept
    refine ⟨fun same => ?_, fun ⟨same, stays⟩ => absurd (same ▸ stays) kept⟩
    obtain ⟨_, rfl⟩ := EntryMap.versionAt_inj (freshVersion.symm.trans (same.trans version))
    exact absurd bound (Nat.not_le.mpr after)

end Store

end ReviewChecks
