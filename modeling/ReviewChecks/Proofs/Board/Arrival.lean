import Mathlib.Data.List.Induction
import ReviewChecks.Board.Reading
import ReviewChecks.Proofs.Board.Names

/-! # The order of the providers

The entries of a context are a map that keeps the order in which its keys came. A provider comes to a context with the
mutation that gives it the entry which it has had there since (`Store.CameAt`), and the entries stand in the order of
these arrivals, however often they were overwritten later. A mutation about one provider leaves those of all others
where they are (`Store.others_apply`), and the readings that look for the first of something or collect something take
the providers in their order (`Entries.readInOrder`). `Store.InsertionOrdered` is all of that for one history.
-/

namespace ReviewChecks

/-- The provider that a mutation is about. -/
def Mutation.subject? : Mutation → Option String
  | .register plugin _ | .remove plugin | .startLoading plugin _ | .fail plugin _ _ | .requireLogin plugin _ _
  | .load plugin _ _ _ _ | .push plugin _ _ => some plugin
  | .setPin _ | .normalizePin _ => none

namespace Entries

/-- The entries of all providers but one. -/
def others (entries : Entries) (subject : Option String) : Entries :=
  entries.filter fun entry => some entry.plugin ≠ subject

theorem others_put (entry : Entry) (entries : Entries) :
    (entries.put entry).others (some entry.plugin) = entries.others (some entry.plugin) := by
  induction entries with
  | nil => simp [put, others]
  | cons head rest ih =>
    unfold put
    by_cases same : head.plugin = entry.plugin
    · simp [others, same]
    · simp only [others, if_neg same, List.filter_cons] at ih ⊢
      rw [ih]

theorem others_update (entries : Entries) (plugin : String) {change : Entry → Entry}
    (keeps : ∀ entry : Entry, entry.plugin = plugin → (change entry).plugin = plugin) :
    (entries.update plugin change).others (some plugin) = entries.others (some plugin) := by
  have own := keeps _ (plugin_getD entries plugin)
  have placed := others_put (change ((entries.get? plugin).getD (.fresh plugin))) entries
  rw [own] at placed
  exact placed

theorem others_erase? (entries : Entries) (plugin : String) :
    ((entries.erase? plugin).getD entries).others (some plugin) = entries.others (some plugin) := by
  unfold erase?
  split
  next =>
    rw [Option.getD_some, others, List.filter_filter]
    exact List.filter_congr fun entry _ => by simp
  next => rfl

theorem others_push? (entries : Entries) (plugin : String) (run : RunInfo) (result : CheckResult) :
    ((entries.push? plugin run result).getD entries).others (some plugin) = entries.others (some plugin) := by
  cases comes : entries.push? plugin run result with
  | none => rfl
  | some next =>
    simp only [push?, bind, Option.bind_eq_some_iff, pure, Option.some.injEq] at comes
    obtain ⟨entry, found, pushed, changed, rfl⟩ := comes
    have own : pushed.plugin = plugin := (Entry.plugin_of_push? changed).trans (plugin_of_get? found)
    have placed := others_put pushed entries
    rw [own] at placed
    exact placed

end Entries

namespace Store

private theorem others_replaceEntry (board : Board) (plugin : String) (within context : PatchsetContext)
    {change : Entry → Entry} (keeps : ∀ entry : Entry, entry.plugin = plugin → (change entry).plugin = plugin) :
    Entries.others (((Mutation.replaceEntry board plugin within change).entries? context).getD
        (board.map context).entries) (some plugin) = (board.map context).entries.others (some plugin) := by
  rw [entries_replaceEntry]
  split
  · exact Entries.others_update _ _ keeps
  · rfl

/-- A mutation about one provider leaves the entries of all others as they are and in their order. -/
theorem others_apply (store : Store) (mutation : Mutation) (context : PatchsetContext) :
    ((store.apply mutation).board.map context).entries.others mutation.subject? =
      (store.board.map context).entries.others mutation.subject? := by
  cases about : mutation.subject? with
  | none =>
    have pin : mutation.IsAboutPin := by
      cases mutation with
      | setPin | normalizePin => trivial
      | register | remove | startLoading | fail | requireLogin | load | push => cases about
    rw [entries_apply_of_isAboutPin store mutation pin]
  | some plugin =>
    rw [entries_apply]
    cases mutation with
    | register =>
      obtain rfl := Option.some.inj about
      exact others_replaceEntry _ _ _ _ fun _ _ => rfl
    | startLoading | fail | requireLogin | load =>
      obtain rfl := Option.some.inj about
      exact others_replaceEntry _ _ _ _ fun _ same => same
    | remove =>
      obtain rfl := Option.some.inj about
      exact (congrArg (Entries.others · _) (entries_ofBoth? store.board context (·.erase? _))).trans
        (Entries.others_erase? ..)
    | push _ run result =>
      obtain rfl := Option.some.inj about
      exact (congrArg (Entries.others · _) (entries_ofBoth? store.board context (·.push? _ run result))).trans
        (Entries.others_push? ..)
    | setPin | normalizePin => cases about

/-- The mutation at a place of a history brings a provider to a context, where it has had an entry since. -/
structure CameAt (history : List Mutation) (context : PatchsetContext) (plugin : String) (place : Nat) : Prop where
  inside : place < history.length
  absent : plugin ∉ (entriesAfter (history.take place) context).names
  stays : ∀ count, place < count → count ≤ history.length →
    plugin ∈ (entriesAfter (history.take count) context).names

/-- A provider came to a context before another one. -/
def CameBefore (history : List Mutation) (context : PatchsetContext) (first second : String) : Prop :=
  ∃ place later, CameAt history context first place ∧ CameAt history context second later ∧ place < later

variable {history : List Mutation} {mutation : Mutation} {context : PatchsetContext} {plugin : String}

theorem names_entriesAfter_concat (history : List Mutation) (mutation : Mutation) (context : PatchsetContext) :
    (entriesAfter (history ++ [mutation]) context).names =
      mutation.namesAfter context (entriesAfter history context).names := by
  rw [entriesAfter, applyAll, List.foldl_concat]
  exact names_apply ..

theorem CameAt.concat {place : Nat} (came : CameAt history context plugin place)
    (held : plugin ∈ (entriesAfter (history ++ [mutation]) context).names) :
    CameAt (history ++ [mutation]) context plugin place := by
  obtain ⟨inside, absent, stays⟩ := came
  refine ⟨by simp; omega, ?_, fun count later bound => ?_⟩
  · rwa [List.take_append_of_le_length (Nat.le_of_lt inside)]
  · by_cases earlier : count ≤ history.length
    · rw [List.take_append_of_le_length earlier]
      exact stays count later earlier
    · rwa [List.take_of_length_le (by simp at bound ⊢; omega)]

theorem cameAt_of_new (absent : plugin ∉ (entriesAfter history context).names)
    (held : plugin ∈ (entriesAfter (history ++ [mutation]) context).names) :
    CameAt (history ++ [mutation]) context plugin history.length := by
  refine ⟨by simp, ?_, fun count later bound => ?_⟩
  · rwa [List.take_left']
    rfl
  · rwa [List.take_of_length_le (by simp at bound ⊢; omega)]

/-- Who has an entry in a context has come there. -/
theorem mem_names_iff_cameAt :
    plugin ∈ (entriesAfter history context).names ↔ ∃ place, CameAt history context plugin place := by
  constructor
  · intro held
    induction history using List.reverseRecOn with
    | nil => cases context <;> cases held
    | append_singleton history mutation ih =>
      by_cases before : plugin ∈ (entriesAfter history context).names
      · obtain ⟨place, came⟩ := ih before
        exact ⟨place, came.concat held⟩
      · exact ⟨_, cameAt_of_new before held⟩
  · rintro ⟨place, inside, _, stays⟩
    simpa using stays history.length inside (Nat.le_refl _)

end Store

/-- A mutation keeps the order of the providers that stay, and adds one at most, at the end. -/
theorem Mutation.namesAfter_cases (context : PatchsetContext) (names : List String) (mutation : Mutation) :
    (mutation.namesAfter context names).Sublist names ∨
      ∃ plugin, plugin ∉ names ∧ mutation.namesAfter context names = names ++ [plugin] := by
  cases mutation with
  | register plugin within | startLoading plugin within | fail plugin within | requireLogin plugin within
  | load plugin within =>
    simp only [namesAfter]
    split
    next added => exact .inr ⟨plugin, added.2, rfl⟩
    next => exact .inl (.refl _)
  | remove plugin => exact .inl List.filter_sublist
  | push | setPin | normalizePin => exact .inl (.refl _)

namespace Store

theorem CameBefore.concat {first second : String} (before : CameBefore history context first second)
    (held : first ∈ (entriesAfter (history ++ [mutation]) context).names)
    (also : second ∈ (entriesAfter (history ++ [mutation]) context).names) :
    CameBefore (history ++ [mutation]) context first second := by
  obtain ⟨place, later, came, cameToo, earlier⟩ := before
  exact ⟨place, later, came.concat held, cameToo.concat also, earlier⟩

/-- The providers of a context stand in the order in which they came. -/
theorem names_ordered (history : List Mutation) (context : PatchsetContext) :
    (entriesAfter history context).names.Pairwise (CameBefore history context) := by
  induction history using List.reverseRecOn with
  | nil => cases context <;> exact List.Pairwise.nil
  | append_singleton history mutation ih =>
    have after := names_entriesAfter_concat history mutation context
    rcases mutation.namesAfter_cases context (entriesAfter history context).names with kept | ⟨plugin, new, added⟩
    · rw [← after] at kept
      exact (ih.sublist kept).imp_of_mem fun held also before => before.concat held also
    · rw [added] at after
      have arrives : plugin ∈ (entriesAfter (history ++ [mutation]) context).names := after ▸ by simp
      have stays : ∀ other ∈ (entriesAfter history context).names,
          other ∈ (entriesAfter (history ++ [mutation]) context).names := fun other held => after ▸ by simp [held]
      rw [after]
      refine List.pairwise_append.mpr ⟨?_, List.pairwise_singleton .., fun other held newest same => ?_⟩
      · exact ih.imp_of_mem fun held also before => before.concat (stays _ held) (stays _ also)
      · obtain rfl := List.mem_singleton.mp same
        obtain ⟨place, came⟩ := mem_names_iff_cameAt.mp held
        exact ⟨place, _, came.concat (stays other held), cameAt_of_new new arrives, came.inside⟩

/-- What is looked up is what the last mutation about the entry has made of it. -/
theorem entry?_of_last {before after : List Mutation} (last : ∀ later ∈ after, ¬ later.Addresses context plugin) :
    (applyAll {} (before ++ mutation :: after)).board.entry? context plugin =
      mutation.entryAfter context plugin ((applyAll {} before).board.entry? context plugin) := by
  rw [applyAll, List.foldl_append, List.foldl_cons]
  exact (entry?_applyAll_of_not_addresses _ last).trans (entry?_apply ..)

end Store

namespace Entries

/-- The readings that go through the entries take the providers in their order, each with the entry that is looked up
for it. -/
structure ReadInOrder (entries : Entries) : Prop where
  firstError : entries.firstErrorMessage? =
    entries.names.findSome? fun plugin => (entries.get? plugin).bind Entry.errorMessage?
  errors : entries.errorMessages =
    entries.names.filterMap fun plugin => ((entries.get? plugin).bind Entry.errorMessage?).map (plugin, ·)
  firstLogin : entries.firstLogin? =
    entries.names.findSome? fun plugin => (entries.get? plugin).bind Entry.login?
  topLevelActions : entries.topLevelActions =
    entries.names.flatMap fun plugin => ((entries.get? plugin).map Entry.actions).getD []
  topLevelLinks : entries.topLevelLinks =
    entries.names.flatMap fun plugin => ((entries.get? plugin).map Entry.links).getD []

theorem filterMap_names {α : Type} {entries : Entries} {lookup : String → Option α} {read : Entry → Option α}
    (same : ∀ entry ∈ entries, lookup entry.plugin = read entry) :
    entries.names.filterMap lookup = entries.filterMap read := by
  rw [names, List.filterMap_map]
  exact List.filterMap_congr same

theorem findSome?_names {α : Type} {entries : Entries} {lookup : String → Option α} {read : Entry → Option α}
    (same : ∀ entry ∈ entries, lookup entry.plugin = read entry) :
    entries.names.findSome? lookup = entries.findSome? read := by
  rw [← List.head?_filterMap, filterMap_names same, List.head?_filterMap]

theorem flatMap_names {α : Type} {entries : Entries} {lookup : String → List α} {read : Entry → List α}
    (same : ∀ entry ∈ entries, lookup entry.plugin = read entry) :
    entries.names.flatMap lookup = entries.flatMap read := by
  rw [names, List.flatMap_map]
  exact List.flatMap_congr same

theorem readInOrder {entries : Entries} (nodup : entries.names.Nodup) : entries.ReadInOrder := by
  have found : ∀ entry ∈ entries, entries.get? entry.plugin = some entry := fun entry member =>
    (get?_eq_some_iff nodup).mpr ⟨member, rfl⟩
  constructor
  · exact (findSome?_names fun entry member => by rw [found entry member, Option.bind_some]).symm
  · exact (filterMap_names fun entry member => by rw [found entry member, Option.bind_some]).symm
  · exact (findSome?_names fun entry member => by rw [found entry member, Option.bind_some]).symm
  · exact (flatMap_names fun entry member => by rw [found entry member, Option.map_some, Option.getD_some]).symm
  · exact (flatMap_names fun entry member => by rw [found entry member, Option.map_some, Option.getD_some]).symm

end Entries

namespace Store

/-- The entries of a context after a history are a map that keeps the order in which its keys came. -/
structure InsertionOrdered (history : List Mutation) (context : PatchsetContext) : Prop where
  /-- No provider has two entries. -/
  distinct : (entriesAfter history context).names.Nodup
  /-- Those who have an entry are those who have come. -/
  present : ∀ plugin, plugin ∈ (entriesAfter history context).names ↔ ∃ place, CameAt history context plugin place
  /-- Who came first stands first. -/
  ordered : (entriesAfter history context).names.Pairwise (CameBefore history context)
  /-- Each entry is the one that is looked up for its provider. -/
  addressed : ∀ entry, entry ∈ entriesAfter history context ↔
    (entriesAfter history context).get? entry.plugin = some entry
  /-- What is looked up is what the last mutation about the entry has made of it. -/
  lastWritten : ∀ before mutation after plugin, history = before ++ mutation :: after →
    (∀ later ∈ after, ¬ later.Addresses context plugin) →
    (entriesAfter history context).get? plugin =
      mutation.entryAfter context plugin ((entriesAfter before context).get? plugin)
  /-- One mutation more leaves all providers but its own where they are, with their entries. -/
  others : ∀ mutation : Mutation, (entriesAfter (history ++ [mutation]) context).others mutation.subject? =
    (entriesAfter history context).others mutation.subject?
  /-- The providers are reported in their order. -/
  read : (entriesAfter history context).ReadInOrder

/-- Whatever was done to a store, each context is a map of its providers that keeps the order in which they came. -/
theorem insertion_ordered (history : List Mutation) (context : PatchsetContext) : InsertionOrdered history context where
  distinct := nodup_names history context
  present _ := mem_names_iff_cameAt
  ordered := names_ordered history context
  addressed entry := by
    rw [Entries.get?_eq_some_iff (nodup_names history context), and_iff_left rfl]
  lastWritten := by
    rintro before mutation after plugin rfl last
    exact entry?_of_last last
  others mutation := by
    rw [entriesAfter, applyAll, List.foldl_concat]
    exact others_apply ..
  read := Entries.readInOrder (nodup_names history context)

/-- Two providers are registered, one of them twice, and a third one reports an error without being registered. One
leaves and returns, and the error of the first comes last. -/
def shuffledMutations : List Mutation :=
  [.register "ci" .latest, .register "lint" .latest, .fail "docs" .latest "Timed out", .register "ci" .latest,
    .remove "lint", .load "lint" .latest [] [] [], .fail "ci" .latest "Unreachable"]

/-- The one that returned comes last, the one that was registered twice keeps its place, and its error goes first. -/
theorem insertion_ordered_shuffled :
    (entriesAfter shuffledMutations .latest).names = ["ci", "docs", "lint"] ∧
      CameBefore shuffledMutations .latest "docs" "lint" ∧
      (entriesAfter shuffledMutations .latest).firstErrorMessage? = some "Unreachable" := by
  have ordered := insertion_ordered shuffledMutations .latest
  have names : (entriesAfter shuffledMutations .latest).names = ["ci", "docs", "lint"] := by decide
  have before := ordered.ordered
  rw [names] at before
  refine ⟨names, List.rel_of_pairwise_cons (List.pairwise_cons.mp before).2 (by simp), ?_⟩
  rw [ordered.read.firstError, names]
  decide

end Store

end ReviewChecks
