import ReviewChecks.Store

/-! # What a mutation makes of one entry

Entries do not depend on each other: what a mutation makes of the entry of a provider in a context is a function of
that entry alone (`Mutation.entryAfter`, `Store.entry?_apply`), and of a mutation that addresses another entry it is
nothing (`Mutation.entryAfter_of_not_addresses`).
-/

namespace ReviewChecks

namespace Entries

theorem plugin_of_get? {entries : Entries} {plugin : String} {entry : Entry}
    (found : entries.get? plugin = some entry) : entry.plugin = plugin := by
  simpa using List.find?_some found

theorem plugin_getD (entries : Entries) (plugin : String) :
    ((entries.get? plugin).getD (.fresh plugin)).plugin = plugin := by
  cases found : entries.get? plugin with
  | none => rfl
  | some entry => exact plugin_of_get? found

/-- Putting an entry sets that of its own provider and no other. -/
theorem get?_put (entry : Entry) (entries : Entries) (plugin : String) :
    (entries.put entry).get? plugin = if entry.plugin = plugin then some entry else entries.get? plugin := by
  induction entries with
  | nil => simp [put, get?]
  | cons head rest ih =>
    unfold put
    by_cases same : head.plugin = entry.plugin
    · rw [if_pos same]
      by_cases asked : entry.plugin = plugin
      · simp [get?, asked]
      · simp [get?, asked, same]
    · rw [if_neg same]
      by_cases first : head.plugin = plugin
      · have other : entry.plugin ≠ plugin := fun asked => same (first.trans asked.symm)
        simp [get?, first, other]
      · simp only [get?, List.find?_cons, beq_eq_false_iff_ne.mpr first] at ih ⊢
        exact ih

theorem get?_update (entries : Entries) (updated plugin : String) {change : Entry → Entry}
    (keeps : ∀ entry, (change entry).plugin = entry.plugin) :
    (entries.update updated change).get? plugin =
      if updated = plugin then some (change ((entries.get? plugin).getD (.fresh plugin))) else entries.get? plugin := by
  rw [update, get?_put, keeps, plugin_getD]
  split
  next same => rw [same]
  next => rfl

/-- Erasing removes the entries of one provider and of no other. -/
theorem get?_erase? (entries : Entries) (erased plugin : String) :
    ((entries.erase? erased).getD entries).get? plugin = if erased = plugin then none else entries.get? plugin := by
  unfold erase?
  split
  next =>
    rw [Option.getD_some, get?, List.find?_filter]
    split
    next same =>
      subst same
      refine List.find?_eq_none.mpr fun entry _ found => ?_
      simp at found
    next other =>
      refine congrArg (List.find? · entries) (funext fun entry => ?_)
      by_cases asked : entry.plugin = plugin
      · simp [asked, Ne.symm other]
      · simp [asked]
  next absent =>
    split
    next same =>
      subst same
      simpa using absent
    next => rfl

end Entries

theorem Entry.plugin_of_push? {entry pushed : Entry} {run : RunInfo} {result : CheckResult}
    (comes : entry.push? run result = some pushed) : pushed.plugin = entry.plugin := by
  simp only [push?, bind, Option.bind_eq_some_iff] at comes
  obtain ⟨externalId, _, held⟩ := comes
  split at held
  · rw [← Option.some.inj held]
  · cases held

/-- Pushing a result changes at most the entry of its provider. -/
theorem Entries.get?_push? (entries : Entries) (pushed plugin : String) (run : RunInfo) (result : CheckResult) :
    ((entries.push? pushed run result).getD entries).get? plugin =
      if pushed = plugin then (entries.get? plugin).map fun entry => (entry.push? run result).getD entry
      else entries.get? plugin := by
  cases found : entries.get? pushed with
  | none =>
    have nothing : entries.push? pushed run result = none := by simp [push?, found]
    rw [nothing, Option.getD_none]
    split
    next same => rw [← same, found, Option.map_none]
    next => rfl
  | some entry =>
    have own := plugin_of_get? found
    cases comes : entry.push? run result with
    | none =>
      have nothing : entries.push? pushed run result = none := by simp [push?, found, comes]
      rw [nothing, Option.getD_none]
      split
      next same => rw [← same, found, Option.map_some, comes, Option.getD_none]
      next => rfl
    | some next =>
      have changed : entries.push? pushed run result = some (entries.put next) := by simp [push?, found, comes]
      rw [changed, Option.getD_some, get?_put, Entry.plugin_of_push? comes, own]
      split
      next same => rw [← same, found, Option.map_some, comes, Option.getD_some]
      next => rfl

namespace Mutation

/-- What a mutation makes of the entry of a provider in a context. -/
def entryAfter (context : PatchsetContext) (plugin : String) (entry : Option Entry) : Mutation → Option Entry
  | .register changed within => if changed = plugin ∧ within = context then some (.fresh plugin) else entry
  | .remove changed => if changed = plugin then none else entry
  | .startLoading changed within =>
    if changed = plugin ∧ within = context then some (entry.getD (.fresh plugin)).startLoading else entry
  | .fail changed within message =>
    if changed = plugin ∧ within = context then some ((entry.getD (.fresh plugin)).fail (.error message)) else entry
  | .requireLogin changed within login =>
    if changed = plugin ∧ within = context then some ((entry.getD (.fresh plugin)).fail (.notLoggedIn login))
    else entry
  | .load changed within runs actions links =>
    if changed = plugin ∧ within = context then some ((entry.getD (.fresh plugin)).load runs actions links) else entry
  | .push changed run result =>
    if changed = plugin then entry.map fun entry => (entry.push? run result).getD entry else entry
  | .setPin _ | .normalizePin _ => entry

/-- Whether a mutation is about the entry of a provider in a context. -/
def Addresses (context : PatchsetContext) (plugin : String) : Mutation → Prop
  | .register changed within | .startLoading changed within | .fail changed within _
  | .requireLogin changed within _ | .load changed within _ _ _ => changed = plugin ∧ within = context
  | .remove changed | .push changed _ _ => changed = plugin
  | .setPin _ | .normalizePin _ => False

/-- Whether a mutation is about the pin. -/
def IsAboutPin : Mutation → Prop
  | .setPin _ | .normalizePin _ => True
  | .register .. | .remove _ | .startLoading .. | .fail .. | .requireLogin .. | .load .. | .push .. => False

/-- The one entry that a mutation is about; none for mutations about both contexts or about the pin. -/
def target? : Mutation → Option (String × PatchsetContext)
  | .register plugin context | .startLoading plugin context | .fail plugin context _
  | .requireLogin plugin context _ | .load plugin context _ _ _ => some (plugin, context)
  | .remove _ | .push _ _ _ | .setPin _ | .normalizePin _ => none

theorem target?_of_addresses {mutation : Mutation} {context target : PatchsetContext} {plugin owner : String}
    (addresses : mutation.Addresses context plugin) (aimed : mutation.target? = some (owner, target)) :
    owner = plugin ∧ target = context := by
  cases mutation with
  | register | startLoading | fail | requireLogin | load =>
    obtain ⟨rfl, rfl⟩ := Prod.mk.inj (Option.some.inj aimed)
    exact addresses
  | remove | push | setPin | normalizePin => cases aimed

theorem entryAfter_of_not_addresses {context : PatchsetContext} {plugin : String} {mutation : Mutation}
    (elsewhere : ¬ mutation.Addresses context plugin) (entry : Option Entry) :
    mutation.entryAfter context plugin entry = entry := by
  cases mutation with
  | setPin | normalizePin => rfl
  | register | startLoading | fail | requireLogin | load | remove | push => exact if_neg elsewhere

end Mutation

/-- The new entries of a context in a replacement. -/
def Replacement.entries? (replacement : Replacement) : PatchsetContext → Option Entries
  | .latest => replacement.latest
  | .selected => replacement.selected

/-- What replaces the entries of both contexts if it finds something does so in each where it finds something. -/
theorem Replacement.entries?_ofBoth? (board : Board) (context : PatchsetContext) (change : Entries → Option Entries) :
    (ofBoth? (change board.latest.entries) (change board.selected.entries)).bind (·.entries? context) =
      change (board.map context).entries := by
  unfold ofBoth?
  split
  next => cases context <;> rfl
  next nothing =>
    simp only [Bool.or_eq_true, not_or, Option.not_isSome_iff_eq_none] at nothing
    cases context with
    | latest => exact nothing.1.symm
    | selected => exact nothing.2.symm

/-- What is written about the pin brings no entries. -/
theorem Mutation.entries?_of_isAboutPin {board : Board} {mutation : Mutation} (about : mutation.IsAboutPin)
    (context : PatchsetContext) : (mutation.replacement? board).bind (·.entries? context) = none := by
  cases mutation with
  | setPin patchset =>
    simp only [replacement?]
    split <;> cases context <;> rfl
  | normalizePin latest =>
    simp only [replacement?]
    split
    · split <;> cases context <;> rfl
    · cases context <;> rfl
    · rfl
  | register | remove | startLoading | fail | requireLogin | load | push => exact about.elim

namespace Store

theorem entries_apply (store : Store) (mutation : Mutation) (context : PatchsetContext) :
    ((store.apply mutation).board.map context).entries =
      ((mutation.replacement? store.board).bind (·.entries? context)).getD (store.board.map context).entries := by
  unfold apply publish?
  cases mutation.replacement? store.board with
  | none => rfl
  | some replacement =>
    cases context with
    | latest =>
      simp only [Option.map_some, Option.getD_some, Option.bind_some, Replacement.entries?, Replacement.applyTo,
        Board.map]
      cases replacement.latest <;> rfl
    | selected =>
      simp only [Option.map_some, Option.getD_some, Option.bind_some, Replacement.entries?, Replacement.applyTo,
        Board.map]
      cases replacement.selected <;> rfl

/-- What is written about the pin leaves the entries alone. -/
theorem entries_apply_of_isAboutPin (store : Store) (mutation : Mutation) (about : mutation.IsAboutPin)
    (context : PatchsetContext) :
    ((store.apply mutation).board.map context).entries = (store.board.map context).entries := by
  rw [entries_apply, Mutation.entries?_of_isAboutPin about]
  rfl

/-- Replacing an entry updates the entries of its context. -/
theorem entries_replaceEntry (board : Board) (plugin : String) (within context : PatchsetContext)
    (change : Entry → Entry) :
    ((Mutation.replaceEntry board plugin within change).entries? context).getD (board.map context).entries =
      if within = context then (board.map context).entries.update plugin change else (board.map context).entries := by
  cases within <;> cases context <;> rfl

/-- Replacing in both contexts does to each what it does to its entries alone. -/
theorem entries_ofBoth? (board : Board) (context : PatchsetContext)
    (change : Entries → Option Entries) :
    ((Replacement.ofBoth? (change board.latest.entries) (change board.selected.entries)).bind
        (·.entries? context)).getD (board.map context).entries =
      (change (board.map context).entries).getD (board.map context).entries := by
  rw [Replacement.entries?_ofBoth?]

private theorem entry?_replaceEntry (board : Board) (changed plugin : String) (within context : PatchsetContext)
    {change : Entry → Entry} (keeps : ∀ entry, (change entry).plugin = entry.plugin) :
    Entries.get? (((Mutation.replaceEntry board changed within change).entries? context).getD
        (board.map context).entries) plugin =
      if changed = plugin ∧ within = context then
        some (change ((board.entry? context plugin).getD (.fresh plugin)))
      else board.entry? context plugin := by
  rw [entries_replaceEntry]
  by_cases same : within = context
  · rw [if_pos same, Entries.get?_update _ _ _ keeps]
    simp only [same, and_true]
    rfl
  · rw [if_neg same]
    simp only [same, and_false, ↓reduceIte]
    rfl

/-- What a mutation makes of an entry depends on that entry alone. -/
theorem entry?_apply (store : Store) (mutation : Mutation) (context : PatchsetContext) (plugin : String) :
    (store.apply mutation).board.entry? context plugin =
      mutation.entryAfter context plugin (store.board.entry? context plugin) := by
  rw [Board.entry?, entries_apply]
  cases mutation with
  | register changed within =>
    simp only [Mutation.replacement?, Option.bind_some, entries_replaceEntry, Mutation.entryAfter]
    by_cases same : within = context
    · simp only [same, ↓reduceIte, and_true, Entries.update, Entries.get?_put]
      by_cases asked : changed = plugin
      · simp only [asked, ↓reduceIte, Entry.fresh]
      · simp only [asked, ↓reduceIte, Entry.fresh]
        rfl
    · simp only [same, ↓reduceIte, and_false]
      rfl
  | remove changed =>
    exact (congrArg (Entries.get? · plugin) (entries_ofBoth? store.board context
      (·.erase? changed))).trans (Entries.get?_erase? ..)
  | startLoading changed within => exact entry?_replaceEntry _ _ _ _ _ fun _ => rfl
  | fail changed within message => exact entry?_replaceEntry _ _ _ _ _ fun _ => rfl
  | requireLogin changed within login => exact entry?_replaceEntry _ _ _ _ _ fun _ => rfl
  | load changed within runs actions links => exact entry?_replaceEntry _ _ _ _ _ fun _ => rfl
  | push changed run result =>
    exact (congrArg (Entries.get? · plugin) (entries_ofBoth? store.board context
      (·.push? changed run result))).trans (Entries.get?_push? ..)
  | setPin | normalizePin =>
    rw [← entries_apply, entries_apply_of_isAboutPin]
    · rfl
    · trivial

/-- What some mutations make of an entry. -/
theorem entry?_applyAll (store : Store) (mutations : List Mutation) (context : PatchsetContext) (plugin : String) :
    (store.applyAll mutations).board.entry? context plugin =
      mutations.foldl (Mutation.entryAfter context plugin) (store.board.entry? context plugin) := by
  induction mutations generalizing store with
  | nil => rfl
  | cons mutation rest ih =>
    rw [List.foldl_cons, ← entry?_apply]
    exact ih (store.apply mutation)

/-- Mutations that address other entries leave an entry alone. -/
theorem entry?_applyAll_of_not_addresses (store : Store) {mutations : List Mutation} {context : PatchsetContext}
    {plugin : String} (elsewhere : ∀ mutation ∈ mutations, ¬ mutation.Addresses context plugin) :
    (store.applyAll mutations).board.entry? context plugin = store.board.entry? context plugin := by
  rw [entry?_applyAll]
  induction mutations with
  | nil => rfl
  | cons mutation rest ih =>
    rw [List.foldl_cons, Mutation.entryAfter_of_not_addresses (elsewhere mutation (by simp))]
    exact ih fun other member => elsewhere other (List.mem_cons_of_mem _ member)

end Store

end ReviewChecks
