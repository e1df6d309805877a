import Mathlib.Data.List.Nodup
import ReviewChecks.Proofs.Board.Locality

/-! # The providers of a context

The names of the providers that have an entry in a context, in the order of the entries, change with a mutation in a way
that depends on the names alone (`Mutation.namesAfter`, `Store.names_apply`). They stay distinct
(`Store.nodup_names`), so that every entry is the one that its provider's name addresses
(`Store.entry?_eq_some_of_mem`).
-/

namespace ReviewChecks

namespace Entries

/-- The names of the providers that have an entry. -/
def names (entries : Entries) : List String :=
  entries.map (·.plugin)

theorem get?_eq_none_iff {entries : Entries} {plugin : String} :
    entries.get? plugin = none ↔ plugin ∉ entries.names := by
  simp only [get?, List.find?_eq_none, names, List.mem_map, not_exists, not_and, beq_iff_eq]

/-- With distinct names an entry is the one that its name addresses. -/
theorem get?_eq_some_iff {entries : Entries} (nodup : entries.names.Nodup) {plugin : String} {entry : Entry} :
    entries.get? plugin = some entry ↔ entry ∈ entries ∧ entry.plugin = plugin := by
  constructor
  · intro found
    exact ⟨List.mem_of_find?_eq_some found, plugin_of_get? found⟩
  · rintro ⟨member, rfl⟩
    cases found : entries.get? entry.plugin with
    | none => exact (get?_eq_none_iff.mp found (List.mem_map_of_mem member)).elim
    | some other =>
      have same := List.inj_on_of_nodup_map nodup (List.mem_of_find?_eq_some found) member (plugin_of_get? found)
      rw [same]

theorem names_put (entry : Entry) (entries : Entries) :
    (entries.put entry).names =
      if entry.plugin ∈ entries.names then entries.names else entries.names ++ [entry.plugin] := by
  induction entries with
  | nil => simp [put, names]
  | cons head rest ih =>
    unfold put
    by_cases same : head.plugin = entry.plugin
    · simp [names, same]
    · have other : entry.plugin ≠ head.plugin := Ne.symm same
      simp only [names, List.map_cons, same, ↓reduceIte, List.mem_cons, other, false_or] at ih ⊢
      rw [ih]
      by_cases named : entry.plugin ∈ rest.map (·.plugin) <;> simp only [named, ↓reduceIte, List.cons_append]

theorem names_update (entries : Entries) (plugin : String) {change : Entry → Entry}
    (keeps : ∀ entry : Entry, entry.plugin = plugin → (change entry).plugin = plugin) :
    (entries.update plugin change).names =
      if plugin ∈ entries.names then entries.names else entries.names ++ [plugin] := by
  rw [update, names_put, keeps _ (plugin_getD entries plugin)]

theorem names_erase? (entries : Entries) (plugin : String) :
    ((entries.erase? plugin).getD entries).names = entries.names.filter (· ≠ plugin) := by
  unfold erase?
  split
  next =>
    simp only [Option.getD_some, names, List.filter_map]
    refine congrArg (List.map _) (List.filter_congr fun entry _ => ?_)
    by_cases same : entry.plugin = plugin <;> simp [same]
  next absent =>
    have unnamed : plugin ∉ entries.names := get?_eq_none_iff.mp (by simpa using absent)
    refine (List.filter_eq_self.mpr fun name member => ?_).symm
    simpa using ne_of_mem_of_not_mem member unnamed

theorem names_push? (entries : Entries) (plugin : String) (run : RunInfo) (result : CheckResult) :
    ((entries.push? plugin run result).getD entries).names = entries.names := by
  cases comes : entries.push? plugin run result with
  | none => rfl
  | some next =>
    simp only [push?, bind, Option.bind_eq_some_iff, pure, Option.some.injEq] at comes
    obtain ⟨entry, found, pushed, changed, rfl⟩ := comes
    have named : entry.plugin ∈ entries.names := List.mem_map_of_mem (List.mem_of_find?_eq_some found)
    rw [Option.getD_some, names_put, Entry.plugin_of_push? changed, if_pos named]

end Entries

/-- What a mutation makes of the names of the providers of a context. -/
def Mutation.namesAfter (context : PatchsetContext) (names : List String) : Mutation → List String
  | .register plugin within | .startLoading plugin within | .fail plugin within _ | .requireLogin plugin within _
  | .load plugin within _ _ _ => if within = context ∧ plugin ∉ names then names ++ [plugin] else names
  | .remove plugin => names.filter (· ≠ plugin)
  | .push _ _ _ | .setPin _ | .normalizePin _ => names

theorem Mutation.nodup_namesAfter (context : PatchsetContext) {names : List String} (nodup : names.Nodup)
    (mutation : Mutation) : (mutation.namesAfter context names).Nodup := by
  have added : ∀ plugin (within : PatchsetContext),
      (if within = context ∧ plugin ∉ names then names ++ [plugin] else names).Nodup := by
    intro plugin within
    split
    next new =>
      refine List.nodup_append.mpr ⟨nodup, by simp, ?_⟩
      simpa using fun name held => ne_of_mem_of_not_mem held new.2
    next => exact nodup
  cases mutation with
  | register plugin within | startLoading plugin within | fail plugin within | requireLogin plugin within
  | load plugin within => exact added plugin within
  | remove plugin => exact nodup.filter _
  | push | setPin | normalizePin => exact nodup

namespace Store

private theorem names_replaceEntry (board : Board) (plugin : String) (within context : PatchsetContext)
    {change : Entry → Entry} (keeps : ∀ entry : Entry, entry.plugin = plugin → (change entry).plugin = plugin) :
    Entries.names (((Mutation.replaceEntry board plugin within change).entries? context).getD
        (board.map context).entries) =
      if within = context ∧ plugin ∉ (board.map context).entries.names then
        (board.map context).entries.names ++ [plugin]
      else (board.map context).entries.names := by
  rw [entries_replaceEntry]
  by_cases same : within = context
  · rw [if_pos same, Entries.names_update _ _ keeps]
    by_cases named : plugin ∈ (board.map context).entries.names <;> simp [same, named]
  · simp [same]

/-- What a mutation makes of the names of the providers of a context depends on these names alone. -/
theorem names_apply (store : Store) (mutation : Mutation) (context : PatchsetContext) :
    ((store.apply mutation).board.map context).entries.names =
      mutation.namesAfter context (store.board.map context).entries.names := by
  rw [entries_apply]
  cases mutation with
  | register plugin within => exact names_replaceEntry _ _ _ _ fun _ _ => rfl
  | startLoading plugin within | fail plugin within | requireLogin plugin within | load plugin within =>
    exact names_replaceEntry _ _ _ _ fun _ same => same
  | remove plugin =>
    exact (congrArg Entries.names (entries_ofBoth? store.board context (·.erase? plugin))).trans
      (Entries.names_erase? ..)
  | push plugin run result =>
    exact (congrArg Entries.names (entries_ofBoth? store.board context (·.push? plugin run result))).trans
      (Entries.names_push? ..)
  | setPin | normalizePin =>
    rw [← entries_apply, entries_apply_of_isAboutPin]
    · rfl
    · trivial

theorem nodup_names_apply {store : Store} {context : PatchsetContext}
    (nodup : (store.board.map context).entries.names.Nodup) (mutation : Mutation) :
    ((store.apply mutation).board.map context).entries.names.Nodup := by
  rw [names_apply]
  exact mutation.nodup_namesAfter context nodup

theorem nodup_names_applyAll {store : Store} {context : PatchsetContext}
    (nodup : (store.board.map context).entries.names.Nodup) (mutations : List Mutation) :
    ((store.applyAll mutations).board.map context).entries.names.Nodup := by
  induction mutations generalizing store with
  | nil => exact nodup
  | cons mutation rest ih => exact ih (nodup_names_apply nodup mutation)

/-- The entries of a context that some mutations lead to from the empty store. -/
abbrev entriesAfter (mutations : List Mutation) (context : PatchsetContext) : Entries :=
  ((Store.applyAll {} mutations).board.map context).entries

/-- From the empty store on, no provider has two entries in a context. -/
theorem nodup_names (mutations : List Mutation) (context : PatchsetContext) :
    (entriesAfter mutations context).names.Nodup := by
  refine nodup_names_applyAll ?_ mutations
  cases context <;> exact List.nodup_nil

/-- The entries of a context are those that can be addressed. -/
theorem entry?_eq_some_of_mem {mutations : List Mutation} {context : PatchsetContext} {entry : Entry}
    (member : entry ∈ entriesAfter mutations context) :
    (Store.applyAll {} mutations).board.entry? context entry.plugin = some entry :=
  (Entries.get?_eq_some_iff (nodup_names mutations context)).mpr ⟨member, rfl⟩

end Store

end ReviewChecks
