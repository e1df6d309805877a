import ReviewChecks.Proofs.Board.Account
import ReviewChecks.Proofs.Pipeline.Independence

/-! # Pushed results

A push looks for what it replaces: the entry of its provider, there the runs it is about, in each of them the first
result with its external id. What it leaves behind is found by the same search again, and by no search for another
target. So pushes to different targets do not see each other, and of two pushes to the same target the later one undoes
the earlier (`Store.pushes_commute_or_overwrite`), whatever is repeated in the reports.

Both facts are about an `Edit` and are carried from results to runs, entries and contexts by one lemma for each of the
two ways to look for something: in the first place that fits (`Edit.first?`) and in every place.
-/

namespace ReviewChecks

/-- A change of a value; none where it finds nothing to change. -/
abbrev Edit (α : Type) := α → Option α

namespace Edit

variable {α : Type}

/-- The value after an edit, which stays as it is where there is nothing to change. -/
def run (edit : Edit α) (value : α) : α :=
  (edit value).getD value

/-- Two edits of a value do not see each other. -/
structure Independent (first second : Edit α) (value : α) : Prop where
  comm : second.run (first.run value) = first.run (second.run value)
  first_finds : (first (second.run value)).isSome = (first value).isSome
  second_finds : (second (first.run value)).isSome = (second value).isSome

/-- Of two edits of a value the second finds what the first does, and finds it again where the first has left it. -/
structure Overwrites (first second : Edit α) (value : α) : Prop where
  undoes : second.run (first.run value) = second.run value
  finds : (first value).isSome = (second value).isSome
  finds_again : (second (first.run value)).isSome = (second value).isSome

theorem run_of_none {edit : Edit α} {value : α} (nothing : edit value = none) : edit.run value = value := by
  rw [run, nothing, Option.getD_none]

theorem Independent.symm {first second : Edit α} {value : α} (independent : Independent first second value) :
    Independent second first value :=
  ⟨independent.comm.symm, independent.second_finds, independent.first_finds⟩

/-- An edit that finds nothing, also after another, is independent of it. -/
theorem Independent.of_none {first second : Edit α} {value : α} (nothing : second value = none)
    (still : second (first.run value) = none) : Independent first second value where
  comm := by rw [run_of_none nothing, run_of_none still]
  first_finds := by rw [run_of_none nothing]
  second_finds := by rw [nothing, still]

/-- The edit of the first value that fits, if it finds something there. -/
def first? (fits : α → Prop) [DecidablePred fits] (edit : Edit α) : Edit (List α)
  | [] => none
  | head :: rest => if fits head then (edit head).map (· :: rest) else (first? fits edit rest).map (head :: ·)

section First

variable {fits fitsToo : α → Prop} [DecidablePred fits] [DecidablePred fitsToo] {first second : Edit α}

theorem run_first?_cons (head : α) (rest : List α) :
    (first? fits first).run (head :: rest) =
      if fits head then first.run head :: rest else head :: (first? fits first).run rest := by
  rw [run, first?]
  split
  next => cases found : first head <;> simp only [run, found, Option.map_none, Option.map_some, Option.getD_none,
      Option.getD_some]
  next => cases found : first? fits first rest <;> simp only [run, found, Option.map_none, Option.map_some,
      Option.getD_none, Option.getD_some]

theorem isSome_first?_cons (head : α) (rest : List α) :
    (first? fits first (head :: rest)).isSome =
      if fits head then (first head).isSome else (first? fits first rest).isSome := by
  rw [first?]
  split <;> exact Option.isSome_map

/-- Edits of first places do not see each other if no edit moves the place of the other and they do not see each other
where both have the same place. -/
theorem Independent.first? {values : List α}
    (keeps : ∀ value, fits value → (fitsToo (first.run value) ↔ fitsToo value))
    (keepsToo : ∀ value, fitsToo value → (fits (second.run value) ↔ fits value))
    (within : ∀ value, fits value → fitsToo value → Independent first second value) :
    Independent (Edit.first? fits first) (Edit.first? fitsToo second) values := by
  induction values with
  | nil => exact ⟨rfl, rfl, rfl⟩
  | cons head rest ih =>
    obtain ⟨comm, firstFinds, secondFinds⟩ := ih
    constructor <;>
      by_cases fit : fits head <;> by_cases fitToo : fitsToo head <;>
        simp only [run_first?_cons, isSome_first?_cons, fit, fitToo, keeps head, keepsToo head, ↓reduceIte]
    · rw [(within head fit fitToo).comm]
    · rw [comm]
    · exact (within head fit fitToo).first_finds
    · exact firstFinds
    · exact (within head fit fitToo).second_finds
    · exact secondFinds

/-- Of two edits of the first place the second overwrites if it does so there and the first keeps the place. -/
theorem Overwrites.first? {values : List α} (keeps : ∀ value, fits value → fits (first.run value))
    (within : ∀ value, fits value → Overwrites first second value) :
    Overwrites (Edit.first? fits first) (Edit.first? fits second) values := by
  induction values with
  | nil => exact ⟨rfl, rfl, rfl⟩
  | cons head rest ih =>
    obtain ⟨undoes, finds, findsAgain⟩ := ih
    constructor <;> by_cases fit : fits head <;>
      simp only [run_first?_cons, isSome_first?_cons, fit, keeps head, ↓reduceIte]
    · rw [(within head fit).undoes]
    · rw [undoes]
    · exact (within head fit).finds
    · exact finds
    · exact (within head fit).finds_again
    · exact findsAgain

end First

end Edit

/-- What tells runs apart: change, patchset, attempt and check. -/
def RunInfo.identity (info : RunInfo) : UInt64 × UInt32 × Option UInt32 × String :=
  (info.change, info.patchset, info.attempt, info.checkName)

theorem RunInfo.sameRun_iff {left right : RunInfo} : left.sameRun right ↔ left.identity = right.identity := by
  simp only [sameRun, identity, Bool.and_eq_true, beq_iff_eq, Prod.mk.injEq, and_assoc]

/-- The edit that a push is to the results of a run. -/
def replaceFirst? (externalId : String) (updated : CheckResult) : Edit (List RunResult) :=
  Edit.first? (fun held => held.result.externalId = some externalId) fun held => some { held with result := updated }

theorem replaceResult?_eq (externalId : String) (updated : CheckResult) :
    replaceResult? externalId updated = replaceFirst? externalId updated := by
  funext results
  induction results with
  | nil => rfl
  | cons held rest ih =>
    rw [replaceResult?, ih]
    rfl

theorem replaceFirst?_independent {externalId otherId : String} (different : externalId ≠ otherId)
    {updated other : CheckResult} (named : updated.externalId = some externalId)
    (otherNamed : other.externalId = some otherId) (results : List RunResult) :
    Edit.Independent (replaceFirst? externalId updated) (replaceFirst? otherId other) results := by
  refine Edit.Independent.first? (fun held fit => ?_) (fun held fit => ?_) fun held fit fitToo => ?_
  · simp only [Edit.run, Option.getD_some, named, fit]
  · simp only [Edit.run, Option.getD_some, otherNamed, fit]
  · exact absurd (Option.some.inj (fit.symm.trans fitToo)) different

theorem replaceFirst?_overwrites {externalId : String} {updated : CheckResult}
    (named : updated.externalId = some externalId) (other : CheckResult) (results : List RunResult) :
    Edit.Overwrites (replaceFirst? externalId updated) (replaceFirst? externalId other) results :=
  Edit.Overwrites.first? (fun _ _ => named) fun _ _ => ⟨rfl, rfl, rfl⟩

namespace CheckRun

/-- The edit that a push is to a run. -/
def push? (target : RunInfo) (updated : CheckResult) : Edit CheckRun := fun run =>
  updated.externalId.bind fun externalId => run.replaceResult? target externalId updated

section Push

variable {target : RunInfo} {updated : CheckResult} {run : CheckRun}

theorem push?_of_unnamed (unnamed : updated.externalId = none) : push? target updated run = none := by
  rw [push?, unnamed, Option.bind_none]

theorem push?_of_not_sameRun (elsewhere : ¬ run.info.sameRun target) : push? target updated run = none := by
  unfold push? replaceResult?
  cases updated.externalId with
  | none => rfl
  | some externalId => exact if_neg elsewhere

/-- A push to its run edits the results. -/
theorem push?_of_sameRun {externalId : String} (named : updated.externalId = some externalId)
    (same : run.info.sameRun target) :
    push? target updated run =
      (replaceFirst? externalId updated run.results).map fun results => { run with results } := by
  rw [push?, named, Option.bind_some, replaceResult?, if_pos same, replaceResult?_eq]

theorem run_push?_of_sameRun {externalId : String} (named : updated.externalId = some externalId)
    (same : run.info.sameRun target) :
    (push? target updated).run run = { run with results := (replaceFirst? externalId updated).run run.results } := by
  rw [Edit.run, push?_of_sameRun named same, Edit.run]
  cases replaceFirst? externalId updated run.results <;> rfl

theorem isSome_push?_of_sameRun {externalId : String} (named : updated.externalId = some externalId)
    (same : run.info.sameRun target) :
    (push? target updated run).isSome = (replaceFirst? externalId updated run.results).isSome := by
  rw [push?_of_sameRun named same, Option.isSome_map]

/-- A push leaves the description of a run alone. -/
theorem info_run_push? : ((push? target updated).run run).info = run.info := by
  cases named : updated.externalId with
  | none => rw [Edit.run_of_none (push?_of_unnamed named)]
  | some externalId =>
    by_cases same : run.info.sameRun target
    · rw [run_push?_of_sameRun named same]
    · rw [Edit.run_of_none (push?_of_not_sameRun same)]

end Push

section Pair

variable {target otherTarget : RunInfo} {updated other : CheckResult}

theorem push?_independent
    (different : (target.identity, updated.externalId) ≠ (otherTarget.identity, other.externalId)) (run : CheckRun) :
    Edit.Independent (push? target updated) (push? otherTarget other) run := by
  cases named : updated.externalId with
  | none => exact (Edit.Independent.of_none (push?_of_unnamed named) (push?_of_unnamed named)).symm
  | some externalId =>
  cases otherNamed : other.externalId with
  | none => exact Edit.Independent.of_none (push?_of_unnamed otherNamed) (push?_of_unnamed otherNamed)
  | some otherId =>
  by_cases same : run.info.sameRun target
  · by_cases sameToo : run.info.sameRun otherTarget
    · have identities : target.identity = otherTarget.identity :=
        (RunInfo.sameRun_iff.mp same).symm.trans (RunInfo.sameRun_iff.mp sameToo)
      have ids : externalId ≠ otherId := fun equal =>
        different (by rw [identities, named, otherNamed, equal])
      obtain ⟨comm, finds, findsToo⟩ := replaceFirst?_independent ids named otherNamed run.results
      constructor
      · simp only [run_push?_of_sameRun named, run_push?_of_sameRun otherNamed, same, sameToo, comm]
      · simp only [run_push?_of_sameRun otherNamed, isSome_push?_of_sameRun named, same, sameToo, finds]
      · simp only [run_push?_of_sameRun named, isSome_push?_of_sameRun otherNamed, same, sameToo, findsToo]
    · refine Edit.Independent.of_none (push?_of_not_sameRun sameToo) (push?_of_not_sameRun ?_)
      rwa [info_run_push?]
  · refine (Edit.Independent.of_none (push?_of_not_sameRun same) (push?_of_not_sameRun ?_)).symm
    rwa [info_run_push?]

theorem push?_overwrites
    (equal : (target.identity, updated.externalId) = (otherTarget.identity, other.externalId)) (run : CheckRun) :
    Edit.Overwrites (push? target updated) (push? otherTarget other) run := by
  obtain ⟨identities, ids⟩ := Prod.mk.inj equal
  cases named : updated.externalId with
  | none =>
    have idle : push? target updated run = none := push?_of_unnamed named
    have idleToo : push? otherTarget other run = none := push?_of_unnamed (ids.symm.trans named)
    constructor <;> simp only [Edit.run_of_none idle, idle, idleToo]
  | some externalId =>
    have otherNamed : other.externalId = some externalId := ids.symm.trans named
    by_cases same : run.info.sameRun target
    · have sameToo : run.info.sameRun otherTarget :=
        RunInfo.sameRun_iff.mpr ((RunInfo.sameRun_iff.mp same).trans identities)
      obtain ⟨undoes, finds, again⟩ := replaceFirst?_overwrites named other run.results
      constructor
      · simp only [run_push?_of_sameRun named, run_push?_of_sameRun otherNamed, same, sameToo, undoes]
      · simp only [isSome_push?_of_sameRun named, isSome_push?_of_sameRun otherNamed, same, sameToo, finds]
      · simp only [run_push?_of_sameRun named, isSome_push?_of_sameRun otherNamed, same, sameToo, again]
    · have idle : push? target updated run = none := push?_of_not_sameRun same
      have idleToo : push? otherTarget other run = none := push?_of_not_sameRun fun sameToo =>
        same (RunInfo.sameRun_iff.mpr ((RunInfo.sameRun_iff.mp sameToo).trans identities.symm))
      constructor <;> simp only [Edit.run_of_none idle, idle, idleToo]

end Pair

end CheckRun

namespace Entry

theorem isSome_push? (entry : Entry) (target : RunInfo) (updated : CheckResult) :
    (entry.push? target updated).isSome = entry.runs.any fun run => (CheckRun.push? target updated run).isSome := by
  unfold push? CheckRun.push?
  cases updated.externalId with
  | none => simp
  | some externalId =>
    simp only [Option.bind_eq_bind, Option.bind_some]
    split
    next some => rw [some, Option.isSome_some]
    next nothing => rw [Option.isSome_none, eq_false_of_ne_true nothing]

/-- A push leaves the provider of an entry alone. -/
theorem plugin_run_push? (entry : Entry) (target : RunInfo) (updated : CheckResult) :
    (Edit.run (push? · target updated) entry).plugin = entry.plugin := by
  rw [Edit.run, push?_getD]

variable {target otherTarget : RunInfo} {updated other : CheckResult}

theorem push?_independent
    (different : (target.identity, updated.externalId) ≠ (otherTarget.identity, other.externalId)) (entry : Entry) :
    Edit.Independent (push? · target updated) (push? · otherTarget other) entry := by
  have runs := CheckRun.push?_independent different
  constructor
  · simp only [Edit.run, push?_getD, List.map_map]
    exact congrArg (fun runs => { entry with runs }) (List.map_congr_left fun run _ => (runs run).comm)
  · simp only [Edit.run, push?_getD, isSome_push?, List.any_map]
    exact congrArg entry.runs.any (funext fun run => (runs run).first_finds)
  · simp only [Edit.run, push?_getD, isSome_push?, List.any_map]
    exact congrArg entry.runs.any (funext fun run => (runs run).second_finds)

theorem push?_overwrites
    (equal : (target.identity, updated.externalId) = (otherTarget.identity, other.externalId)) (entry : Entry) :
    Edit.Overwrites (push? · target updated) (push? · otherTarget other) entry := by
  have runs := CheckRun.push?_overwrites equal
  constructor
  · simp only [Edit.run, push?_getD, List.map_map]
    exact congrArg (fun runs => { entry with runs }) (List.map_congr_left fun run _ => (runs run).undoes)
  · simp only [isSome_push?]
    exact congrArg entry.runs.any (funext fun run => (runs run).finds)
  · simp only [Edit.run, push?_getD, isSome_push?, List.any_map]
    exact congrArg entry.runs.any (funext fun run => (runs run).finds_again)

end Entry

namespace Entries

/-- A push to the entries of a context is an edit of the first entry of its provider. -/
theorem push?_eq (plugin : String) (target : RunInfo) (updated : CheckResult) :
    (fun entries : Entries => entries.push? plugin target updated) =
      Edit.first? (fun entry => entry.plugin = plugin) (·.push? target updated) := by
  funext entries
  induction entries with
  | nil => rfl
  | cons head rest ih =>
    rw [Edit.first?, ← ih]
    by_cases own : head.plugin = plugin
    · cases found : head.push? target updated with
      | none => simp [push?, get?, own, found]
      | some pushed =>
        have kept := Entry.plugin_of_push? found
        simp [push?, get?, put, own, found, kept]
    · simp only [push?, get?, List.find?_cons, beq_eq_false_iff_ne.mpr own, if_neg own]
      cases found : List.find? (fun entry => entry.plugin == plugin) rest with
      | none => rfl
      | some entry =>
        have asked : entry.plugin = plugin := plugin_of_get? found
        simp only [Option.bind_eq_bind, Option.bind_some]
        cases taken : entry.push? target updated with
        | none => rfl
        | some pushed =>
          have kept : ¬ head.plugin = pushed.plugin := by rwa [Entry.plugin_of_push? taken, asked]
          simp only [Option.bind_some, Option.pure_def, Option.map_some, put, if_neg kept]

end Entries

/-- A newer version of a result, as it is pushed to the store. -/
structure Push where
  plugin : String
  run : RunInfo
  result : CheckResult
deriving DecidableEq

namespace Push

/-- The mutation that a push is. -/
def mutation (push : Push) : Mutation :=
  .push push.plugin push.run push.result

/-- The edit of the entries of a context that a push is. -/
def edit (push : Push) : Edit Entries :=
  (·.push? push.plugin push.run push.result)

/-- What a push is about: a provider, a run and an external id. -/
def target (push : Push) : String × (UInt64 × UInt32 × Option UInt32 × String) × Option String :=
  (push.plugin, push.run.identity, push.result.externalId)

theorem edit_eq (push : Push) :
    push.edit = Edit.first? (fun entry => entry.plugin = push.plugin) (·.push? push.run push.result) :=
  Entries.push?_eq push.plugin push.run push.result

theorem edit_independent {first second : Push} (different : first.target ≠ second.target) (entries : Entries) :
    Edit.Independent first.edit second.edit entries := by
  rw [edit_eq, edit_eq]
  refine Edit.Independent.first? (fun entry _ => ?_) (fun entry _ => ?_) fun entry own ownToo => ?_
  · rw [Entry.plugin_run_push?]
  · rw [Entry.plugin_run_push?]
  · exact Entry.push?_independent (fun equal => different (Prod.ext (own.symm.trans ownToo) equal)) entry

theorem edit_overwrites {first second : Push} (equal : first.target = second.target) (entries : Entries) :
    Edit.Overwrites first.edit second.edit entries := by
  obtain ⟨plugins, targets⟩ := Prod.mk.inj equal
  rw [edit_eq, edit_eq, plugins]
  exact Edit.Overwrites.first? (fun entry own => by rwa [Entry.plugin_run_push?])
    fun entry _ => Entry.push?_overwrites targets entry

end Push

namespace Store

/-- Whether a mutation changes something, which is what its caller is told. -/
def accepts (store : Store) (mutation : Mutation) : Bool :=
  (store.publish? mutation).isSome

theorem entries_apply_push (store : Store) (push : Push) (context : PatchsetContext) :
    (store.apply push.mutation).board.contents.entries context =
      push.edit.run (store.board.contents.entries context) :=
  (entries_apply store push.mutation context).trans (entries_ofBoth? store.board context push.edit)

theorem pin_apply_push (store : Store) (push : Push) :
    (store.apply push.mutation).board.contents.pin = store.board.contents.pin :=
  pin_apply store push.mutation

/-- A push is accepted if it finds its target in one of the contexts. -/
theorem accepts_push (store : Store) (push : Push) :
    store.accepts push.mutation =
      ((push.edit (store.board.contents.entries .latest)).isSome ||
        (push.edit (store.board.contents.entries .selected)).isSome) := by
  rw [accepts, publish?, Option.isSome_map]
  simp only [Push.mutation, Mutation.replacement?, Replacement.ofBoth?]
  split
  next found => exact found.symm
  next nothing => exact (eq_false_of_ne_true nothing).symm

/-- Neither of two mutations sees the other: both orders lead to the same and tell their callers the same. -/
structure Commute (store : Store) (first second : Mutation) : Prop where
  contents : ((store.apply first).apply second).board.contents = ((store.apply second).apply first).board.contents
  first_accepted : (store.apply second).accepts first = store.accepts first
  second_accepted : (store.apply first).accepts second = store.accepts second

/-- The second of two mutations leaves nothing of the first, and their callers are told the same. -/
structure Overwrites (store : Store) (first second : Mutation) : Prop where
  contents : ((store.apply first).apply second).board.contents = (store.apply second).board.contents
  accepted : (store.apply first).accepts second = store.accepts first

/-- Pushes to different targets commute, and a push overwrites one to the same target. -/
theorem pushes_commute_or_overwrite (store : Store) (first second : Push) :
    (first.target ≠ second.target → store.Commute first.mutation second.mutation) ∧
      (first.target = second.target → store.Overwrites first.mutation second.mutation) := by
  constructor
  · intro different
    have entries := fun context => Push.edit_independent different (store.board.contents.entries context)
    constructor
    · refine Board.Contents.ext ?_ (funext fun context => ?_)
      · simp only [pin_apply_push]
      · simp only [entries_apply_push, (entries context).comm]
    · simp only [accepts_push, entries_apply_push, (entries _).first_finds]
    · simp only [accepts_push, entries_apply_push, (entries _).second_finds]
  · intro equal
    have entries := fun context => Push.edit_overwrites equal (store.board.contents.entries context)
    constructor
    · refine Board.Contents.ext ?_ (funext fun context => ?_)
      · simp only [pin_apply_push]
      · simp only [entries_apply_push, (entries context).undoes]
    · simp only [accepts_push, entries_apply_push, (entries _).finds_again, (entries _).finds]

/-- One report has the same run twice, and in it the same external id twice. -/
def repeatingReport : List Mutation :=
  let info : RunInfo := { change := 42, patchset := 3, attempt := some 1, checkName := "build" }
  let run : Run := ⟨info, [⟨some "a", .error, "old", none, [], [], []⟩, ⟨some "b", .error, "old", none, [], [], []⟩,
    ⟨some "a", .warning, "older", none, [], [], []⟩]⟩
  [.register "ci" .latest, .load "ci" .latest [run, run] [] []]

/-- A push to the first run of the report. -/
def repeatedPush (externalId summary : String) : Push where
  plugin := "ci"
  run := { change := 42, patchset := 3, attempt := some 1, checkName := "build", status := .running }
  result := ⟨some externalId, .success, summary, none, [], [], []⟩

theorem pushes_commute_or_overwrite_repeated :
    let store := applyAll {} repeatingReport
    let first := repeatedPush "a" "fixed"
    store.accepts first.mutation = true ∧
      store.Commute first.mutation (repeatedPush "b" "fixed too").mutation ∧
      store.Overwrites first.mutation (repeatedPush "a" "fixed again").mutation := by
  intro store first
  exact ⟨by decide, (pushes_commute_or_overwrite store first (repeatedPush "b" "fixed too")).1 (by decide),
    (pushes_commute_or_overwrite store first (repeatedPush "a" "fixed again")).2 (by decide)⟩

end Store

end ReviewChecks
