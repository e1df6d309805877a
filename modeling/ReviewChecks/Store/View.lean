import ReviewChecks.Store.Stream

/-!
# Views

The views of the board on offer, with the values that they take. Each makes a selector for a stream: most read the
entries of a context and are only read anew when these have been replaced.
-/

namespace ReviewChecks

inductive ViewValue where
  | flag (value : Bool)
  | patchset (value : Option UInt32)
  | text (value : Option String)
  | messages (values : List (String × String))
  | actions (values : List Action)
  | links (values : List Link)
  | runs (values : List CheckRun)
  | results (values : List RunResult)
  | owners (values : Table String)
  | count (value : Nat)
deriving DecidableEq

inductive EntriesView where
  | someLoading
  | someLoadingFirstTime
  | errorMessage
  | errorMessages
  | login
  | topLevelActions
  | topLevelLinks
  | allRuns
  | allRunsLatestAttempt
  | allResults
  | runCount
deriving DecidableEq, Repr

namespace EntriesView

def ofName? : String → Option EntriesView
  | "some_loading" => some .someLoading
  | "some_loading_first_time" => some .someLoadingFirstTime
  | "error_message" => some .errorMessage
  | "error_messages" => some .errorMessages
  | "login_callback" => some .login
  | "top_level_actions" => some .topLevelActions
  | "top_level_links" => some .topLevelLinks
  | "all_runs" => some .allRuns
  | "all_runs_latest_attempt" => some .allRunsLatestAttempt
  | "all_results" => some .allResults
  | "computed" => some .runCount
  | _ => none

def read (entries : Entries) : EntriesView → ViewValue
  | .someLoading => .flag entries.someLoading
  | .someLoadingFirstTime => .flag entries.someLoadingFirstTime
  | .errorMessage => .text entries.firstErrorMessage?
  | .errorMessages => .messages entries.errorMessages
  | .login => .text entries.firstLogin?
  | .topLevelActions => .actions entries.topLevelActions
  | .topLevelLinks => .links entries.topLevelLinks
  | .allRuns => .runs entries.allRuns
  | .allRunsLatestAttempt => .runs entries.allRunsLatestAttempt
  | .allResults => .results entries.allResults
  | .runCount => .count entries.allRuns.length

end EntriesView

inductive View where
  /-- Whether any provider is registered. -/
  | pluginRegistered
  /-- The pinned patchset. -/
  | selectedPatchset
  /-- The provider of each check of the latest patchset. -/
  | checkOwners
  | ofContext (view : EntriesView) (context : PatchsetContext)
deriving DecidableEq, Repr

def View.selector : View → Selector (Memo ViewValue) ViewValue
  | .pluginRegistered => .ofContext .latest fun entries => .flag entries.pluginRegistered
  | .selectedPatchset => { read := fun memo board => (.patchset board.pin, memo) }
  | .checkOwners => .ofContext .latest fun entries => .owners entries.checkOwners
  | .ofContext view context => .ofContext context fun entries => view.read entries

abbrev View.Stream := ViewStream (Memo ViewValue) ViewValue

def View.open (view : View) (store : Store) : View.Stream :=
  .ofSelector view.selector {} store

end ReviewChecks
