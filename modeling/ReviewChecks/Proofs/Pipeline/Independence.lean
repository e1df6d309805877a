import ReviewChecks.Proofs.Board.Names
import ReviewChecks.Proofs.Model.Pin

/-! # Independence of writers

Pipelines write to one store, each about its own entry. Writes about different entries commute as long as the entries
are there (`Board.Contents.rewrite_comm`): each changes its entry in its place and nothing else. So the order in which
several writers get to the store does not matter, only the order in which each of them writes
(`Store.contents_of_interleaves`). The versions of the entries tell how often something was published and are no part
of what a board says (`Board.contents`).
-/

namespace ReviewChecks

/-- Where an entry stands: its provider and its context. -/
abbrev EntryPlace := String × PatchsetContext

/-- What a pipeline can write about its entry. -/
inductive EntryWrite where
  | startLoading
  | load (runs : List Run) (actions : List Action) (links : List Link)
  | fail (message : String)
  | requireLogin (login : String)
deriving DecidableEq

namespace EntryWrite

/-- What a write makes of an entry. -/
def change : EntryWrite → Entry → Entry
  | .startLoading => Entry.startLoading
  | .load runs actions links => (·.load runs actions links)
  | .fail message => (·.fail (.error message))
  | .requireLogin login => (·.fail (.notLoggedIn login))

/-- The mutation that a write to the entry at a place is. -/
def mutationAt (place : EntryPlace) : EntryWrite → Mutation
  | .startLoading => .startLoading place.1 place.2
  | .load runs actions links => .load place.1 place.2 runs actions links
  | .fail message => .fail place.1 place.2 message
  | .requireLogin login => .requireLogin place.1 place.2 login

@[simp] theorem plugin_change (write : EntryWrite) (entry : Entry) : (write.change entry).plugin = entry.plugin := by
  cases write <;> rfl

@[simp] theorem target?_mutationAt (place : EntryPlace) (write : EntryWrite) :
    (write.mutationAt place).target? = some place := by
  cases write <;> rfl

theorem replacement?_mutationAt (board : Board) (place : EntryPlace) (write : EntryWrite) :
    (write.mutationAt place).replacement? board = some (Mutation.replaceEntry board place.1 place.2 write.change) := by
  cases write <;> rfl

end EntryWrite

namespace Entries

/-- An update changes the first entry of its provider and leaves those before and after it in their places. -/
theorem update_cons (head : Entry) (rest : Entries) (plugin : String) {change : Entry → Entry}
    (keeps : ∀ entry, (change entry).plugin = entry.plugin) :
    update (head :: rest) plugin change =
      if head.plugin = plugin then change head :: rest else head :: update rest plugin change := by
  by_cases first : head.plugin = plugin
  · simp [update, get?, put, first, keeps]
  · have own := keeps ((rest.get? plugin).getD (.fresh plugin))
    rw [plugin_getD] at own
    have skipped : get? (head :: rest) plugin = rest.get? plugin := by
      simp only [get?, List.find?_cons, beq_eq_false_iff_ne.mpr first]
    rw [if_neg first, update, skipped, put, if_neg fun same => first (same.trans own)]
    rfl

/-- Updates of the entries of two providers commute if both are there. An update of an absent one would append. -/
theorem update_comm {entries : Entries} {first second : String} (different : first ≠ second)
    (held : first ∈ entries.names) (also : second ∈ entries.names) {change other : Entry → Entry}
    (keeps : ∀ entry, (change entry).plugin = entry.plugin) (keepsToo : ∀ entry, (other entry).plugin = entry.plugin) :
    (entries.update first change).update second other = (entries.update second other).update first change := by
  induction entries with
  | nil => cases held
  | cons head rest ih =>
    simp only [names, List.map_cons, List.mem_cons] at held also
    by_cases isFirst : head.plugin = first
    · have notSecond : head.plugin ≠ second := fun same => different (isFirst.symm.trans same)
      simp only [update_cons _ _ _ keeps, update_cons _ _ _ keepsToo, keeps, isFirst, different, ↓reduceIte]
    · by_cases isSecond : head.plugin = second
      · simp only [update_cons _ _ _ keeps, update_cons _ _ _ keepsToo, keepsToo, isSecond, Ne.symm different,
          ↓reduceIte]
      · have both := ih (held.resolve_left (Ne.symm isFirst)) (also.resolve_left (Ne.symm isSecond))
        simp only [update_cons _ _ _ keeps, update_cons _ _ _ keepsToo, isFirst, isSecond, ↓reduceIte, both]

end Entries

/-- What a board says: the pin, and the entries of each context in their order. -/
@[ext]
structure Board.Contents where
  pin : Option UInt32
  entries : PatchsetContext → Entries

/-- What a board says. -/
def Board.contents (board : Board) : Board.Contents where
  pin := board.pin
  entries context := (board.map context).entries

/-- Writes to entries in the order in which they reach the store. -/
abbrev Schedule := List (EntryPlace × EntryWrite)

/-- The mutations of a schedule. -/
def Schedule.mutations (schedule : Schedule) : List Mutation :=
  schedule.map fun entry => entry.2.mutationAt entry.1

namespace Board.Contents

/-- There is an entry at a place. -/
def Holds (contents : Contents) (place : EntryPlace) : Prop :=
  place.1 ∈ (contents.entries place.2).names

/-- What is said after a write. -/
def rewrite (contents : Contents) (entry : EntryPlace × EntryWrite) : Contents :=
  { contents with
    entries := fun context =>
      if entry.1.2 = context then (contents.entries context).update entry.1.1 entry.2.change
      else contents.entries context }

theorem names_rewrite (contents : Contents) (entry : EntryPlace × EntryWrite) (held : contents.Holds entry.1)
    (context : PatchsetContext) :
    ((contents.rewrite entry).entries context).names = (contents.entries context).names := by
  unfold rewrite
  dsimp only
  split
  next same =>
    subst same
    rw [Entries.names_update _ _ fun other own => (entry.2.plugin_change other).trans own]
    exact if_pos held
  next => rfl

theorem holds_rewrite {contents : Contents} {entry : EntryPlace × EntryWrite} (held : contents.Holds entry.1)
    (place : EntryPlace) : (contents.rewrite entry).Holds place ↔ contents.Holds place := by
  rw [Holds, names_rewrite contents entry held, Holds]

/-- Writes about different entries commute. -/
theorem rewrite_comm {contents : Contents} {first second : EntryPlace × EntryWrite} (different : first.1 ≠ second.1)
    (held : contents.Holds first.1) (also : contents.Holds second.1) :
    (contents.rewrite first).rewrite second = (contents.rewrite second).rewrite first := by
  obtain ⟨⟨plugin, within⟩, change⟩ := first
  obtain ⟨⟨other, inside⟩, otherChange⟩ := second
  refine Contents.ext rfl (funext fun context => ?_)
  simp only [rewrite]
  by_cases here : within = context
  · by_cases there : inside = context
    · subst here there
      have names : plugin ≠ other := fun same => different (congrArg (·, inside) same)
      simp only [↓reduceIte]
      exact Entries.update_comm names held also change.plugin_change otherChange.plugin_change
    · simp only [here, there, ↓reduceIte]
  · simp only [here, ↓reduceIte]

/-- What is said after all writes of a schedule. -/
def rewriteAll (contents : Contents) (schedule : Schedule) : Contents :=
  schedule.foldl rewrite contents

/-- A write may come before others that are about other entries. -/
theorem rewriteAll_middle {contents : Contents} {before after : Schedule} {entry : EntryPlace × EntryWrite}
    (held : ∀ other ∈ before ++ entry :: after, contents.Holds other.1)
    (others : ∀ other ∈ before, other.1 ≠ entry.1) :
    contents.rewriteAll (before ++ entry :: after) = (contents.rewrite entry).rewriteAll (before ++ after) := by
  induction before generalizing contents with
  | nil => rfl
  | cons head before ih =>
    have headHeld : contents.Holds head.1 := held head (by simp)
    have entryHeld : contents.Holds entry.1 := held entry (by simp)
    have rest : ∀ other ∈ before ++ entry :: after, (contents.rewrite head).Holds other.1 := fun other member =>
      (holds_rewrite headHeld other.1).mpr (held other (List.mem_cons_of_mem _ member))
    have apart : head.1 ≠ entry.1 := others head (List.mem_cons_self ..)
    calc
      contents.rewriteAll (head :: before ++ entry :: after)
      _ = (contents.rewrite head).rewriteAll (before ++ entry :: after) := rfl
      _ = ((contents.rewrite head).rewrite entry).rewriteAll (before ++ after) :=
        ih rest fun other member => others other (List.mem_cons_of_mem _ member)
      _ = ((contents.rewrite entry).rewrite head).rewriteAll (before ++ after) := by
        rw [rewrite_comm apart headHeld entryHeld]
      _ = (contents.rewrite entry).rewriteAll (head :: before ++ after) := rfl

end Board.Contents

/-- What a schedule has of the writes to one place, in its order. -/
def Schedule.writesTo (schedule : Schedule) (place : EntryPlace) : List EntryWrite :=
  (schedule.filter (·.1 = place)).map (·.2)

/-- A schedule interleaves sequences of writes, one for each place: it consists of their writes, and those of each
sequence stand in their order. -/
def Interleaves (sequences : EntryPlace → List EntryWrite) (schedule : Schedule) : Prop :=
  ∀ place, schedule.writesTo place = sequences place

/-- The sequences of some places, one after another. -/
def Schedule.inTurn (sequences : EntryPlace → List EntryWrite) (order : List EntryPlace) : Schedule :=
  order.flatMap fun place => (sequences place).map (place, ·)

namespace Schedule

@[simp] theorem writesTo_append (first second : Schedule) (place : EntryPlace) :
    writesTo (first ++ second) place = first.writesTo place ++ second.writesTo place := by
  simp only [writesTo, List.filter_append, List.map_append]

theorem writesTo_cons (entry : EntryPlace × EntryWrite) (rest : Schedule) (place : EntryPlace) :
    writesTo (entry :: rest) place =
      if entry.1 = place then entry.2 :: rest.writesTo place else rest.writesTo place := by
  by_cases same : entry.1 = place <;> simp [writesTo, same]

theorem writesTo_eq_nil_iff {schedule : Schedule} {place : EntryPlace} :
    schedule.writesTo place = [] ↔ ∀ entry ∈ schedule, entry.1 ≠ place := by
  simp only [writesTo, List.map_eq_nil_iff, List.filter_eq_nil_iff, decide_eq_true_eq, ne_eq]

theorem writesTo_ne_nil_iff {schedule : Schedule} {place : EntryPlace} :
    schedule.writesTo place ≠ [] ↔ ∃ entry ∈ schedule, entry.1 = place := by
  simp only [ne_eq, writesTo_eq_nil_iff, not_forall, Decidable.not_not, exists_prop]

/-- The first write to a place, with what comes before it. -/
theorem exists_of_writesTo_eq_cons {schedule : Schedule} {place : EntryPlace} {write : EntryWrite}
    {rest : List EntryWrite} (first : schedule.writesTo place = write :: rest) :
    ∃ before after : Schedule, schedule = before ++ (place, write) :: after ∧ (∀ other ∈ before, other.1 ≠ place) ∧
      writesTo after place = rest := by
  induction schedule with
  | nil => cases first
  | cons head tail ih =>
    rw [writesTo_cons] at first
    split at first
    next same =>
      obtain ⟨rfl, following⟩ := List.cons.inj first
      exact ⟨[], tail, by rw [← same]; rfl, by simp, following⟩
    next other =>
      obtain ⟨before, after, rfl, others, following⟩ := ih first
      refine ⟨head :: before, after, rfl, fun entry member => ?_, following⟩
      rcases List.mem_cons.mp member with rfl | member
      · exact other
      · exact others entry member

theorem writesTo_map (place other : EntryPlace) (writes : List EntryWrite) :
    writesTo (writes.map (place, ·)) other = if place = other then writes else [] := by
  induction writes with
  | nil => simp [writesTo]
  | cons write rest ih =>
    rw [List.map_cons, writesTo_cons, ih]
    split <;> rfl

/-- One after another is one way to interleave. -/
theorem interleaves_inTurn {sequences : EntryPlace → List EntryWrite} {order : List EntryPlace} (nodup : order.Nodup)
    (complete : ∀ place, sequences place ≠ [] → place ∈ order) : Interleaves sequences (inTurn sequences order) := by
  have only : ∀ place, (inTurn sequences order).writesTo place = if place ∈ order then sequences place else [] := by
    intro place
    clear complete
    induction order with
    | nil => rfl
    | cons head rest ih =>
      obtain ⟨absent, nodup⟩ := List.nodup_cons.mp nodup
      rw [inTurn, List.flatMap_cons, writesTo_append, writesTo_map]
      change _ ++ (inTurn sequences rest).writesTo place = _
      rw [ih nodup]
      by_cases same : head = place
      · subst same
        simp [absent]
      · simp [same, Ne.symm same]
  intro place
  rw [only]
  split
  next => rfl
  next absent =>
    by_contra missing
    exact absent (complete place (Ne.symm missing))

end Schedule

namespace Board.Contents

/-- Schedules with the same writes to each place, in the same order, come to the same. The first write of the one can
be brought to the front of the other, since only writes about other entries come before it there. -/
theorem rewriteAll_eq {contents : Contents} {schedule other : Schedule}
    (held : ∀ entry ∈ schedule, contents.Holds entry.1)
    (same : ∀ place, schedule.writesTo place = other.writesTo place) :
    contents.rewriteAll schedule = contents.rewriteAll other := by
  induction schedule generalizing contents other with
  | nil =>
    have nothing : other = [] := List.eq_nil_iff_forall_not_mem.mpr fun entry member =>
      Schedule.writesTo_eq_nil_iff.mp (same entry.1).symm entry member rfl
    rw [nothing]
  | cons entry rest ih =>
    have heldToo : ∀ entry ∈ other, contents.Holds entry.1 := by
      intro again member
      have written := Schedule.writesTo_ne_nil_iff.mpr ⟨again, member, rfl⟩
      rw [← same] at written
      obtain ⟨first, inside, place⟩ := Schedule.writesTo_ne_nil_iff.mp written
      exact place ▸ held first inside
    have first := same entry.1
    rw [Schedule.writesTo_cons, if_pos rfl] at first
    obtain ⟨before, after, rfl, others, following⟩ := Schedule.exists_of_writesTo_eq_cons first.symm
    have remaining : ∀ place, Schedule.writesTo rest place = Schedule.writesTo (before ++ after) place := by
      intro place
      have both := same place
      rw [Schedule.writesTo_cons, Schedule.writesTo_append, Schedule.writesTo_cons] at both
      rw [Schedule.writesTo_append]
      by_cases own : entry.1 = place
      · subst own
        rw [Schedule.writesTo_eq_nil_iff.mpr others, List.nil_append, following]
      · simpa only [own, ↓reduceIte] using both
    have entryHeld : contents.Holds entry.1 := held entry (List.mem_cons_self ..)
    have restHeld : ∀ later ∈ rest, (contents.rewrite entry).Holds later.1 := fun later member =>
      (holds_rewrite entryHeld later.1).mpr (held later (List.mem_cons_of_mem _ member))
    calc
      contents.rewriteAll (entry :: rest)
      _ = (contents.rewrite entry).rewriteAll rest := rfl
      _ = (contents.rewrite entry).rewriteAll (before ++ after) := ih restHeld remaining
      _ = contents.rewriteAll (before ++ entry :: after) := (rewriteAll_middle heldToo others).symm

end Board.Contents

namespace Store

theorem contents_apply (store : Store) (place : EntryPlace) (write : EntryWrite) :
    (store.apply (write.mutationAt place)).board.contents = store.board.contents.rewrite (place, write) := by
  refine Board.Contents.ext ?_ (funext fun context => ?_)
  · exact (pin_apply ..).trans (Mutation.pinAfter_of_target? (write.target?_mutationAt place) _)
  · simp only [Board.contents, Board.Contents.rewrite]
    rw [entries_apply, EntryWrite.replacement?_mutationAt, Option.bind_some, entries_replaceEntry]

theorem contents_applyAll (store : Store) (schedule : Schedule) :
    (store.applyAll schedule.mutations).board.contents = store.board.contents.rewriteAll schedule := by
  induction schedule generalizing store with
  | nil => rfl
  | cons entry rest ih =>
    have first := contents_apply store entry.1 entry.2
    exact (ih (store.apply (entry.2.mutationAt entry.1))).trans (congrArg (·.rewriteAll rest) first)

/-- Whatever way the writes of several pipelines interleave, the board says the same afterwards, and what it says is
what the pipelines would have written one after another, in any order of theirs. -/
theorem contents_of_interleaves (store : Store) (sequences : EntryPlace → List EntryWrite)
    (held : ∀ place, sequences place ≠ [] → (store.board.entry? place.2 place.1).isSome)
    (schedule : Schedule) (interleaves : Interleaves sequences schedule) :
    (∀ other, Interleaves sequences other →
      (store.applyAll other.mutations).board.contents = (store.applyAll schedule.mutations).board.contents) ∧
    ∀ order : List EntryPlace, order.Nodup → (∀ place, sequences place ≠ [] → place ∈ order) →
      (store.applyAll schedule.mutations).board.contents =
        (store.applyAll (Schedule.inTurn sequences order).mutations).board.contents := by
  have present : ∀ entry ∈ schedule, store.board.contents.Holds entry.1 := by
    intro entry member
    have written := Schedule.writesTo_ne_nil_iff.mpr ⟨entry, member, rfl⟩
    rw [interleaves] at written
    by_contra absent
    have nothing := Entries.get?_eq_none_iff.mpr absent
    have found := held entry.1 written
    rw [Board.entry?] at found
    simp only [Board.contents] at nothing
    rw [nothing] at found
    cases found
  have agree : ∀ other, Interleaves sequences other →
      (store.applyAll schedule.mutations).board.contents = (store.applyAll other.mutations).board.contents := by
    intro other interleavesToo
    rw [contents_applyAll, contents_applyAll]
    exact Board.Contents.rewriteAll_eq present fun place => (interleaves place).trans (interleavesToo place).symm
  refine ⟨fun other interleavesToo => (agree other interleavesToo).symm, fun order nodup complete => ?_⟩
  exact agree _ (Schedule.interleaves_inTurn nodup complete)

/-- Three pipelines of two providers whose writes are mixed. -/
def racingWrites : Schedule :=
  [(("ci", .latest), .startLoading), (("lint", .latest), .startLoading), (("ci", .selected), .fail "Timed out"),
    (("lint", .latest), .requireLogin "Sign in"), (("ci", .latest), .load [] [] [])]

/-- Every other mix of the same writes comes to the same, such as the one in which the second provider goes first. -/
theorem contents_of_interleaves_racing :
    let store := applyAll {} [.register "ci" .latest, .register "lint" .latest, .register "ci" .selected]
    racingWrites ≠ Schedule.inTurn racingWrites.writesTo [("lint", .latest), ("ci", .selected), ("ci", .latest)] ∧
      (store.applyAll racingWrites.mutations).board.contents =
        (store.applyAll (Schedule.inTurn racingWrites.writesTo
          [("lint", .latest), ("ci", .selected), ("ci", .latest)]).mutations).board.contents := by
  intro store
  have places : ∀ place, racingWrites.writesTo place ≠ [] →
      place = ("ci", .latest) ∨ place = ("lint", .latest) ∨ place = ("ci", .selected) := by
    intro place written
    obtain ⟨entry, member, rfl⟩ := Schedule.writesTo_ne_nil_iff.mp written
    revert entry
    decide
  refine ⟨by decide, (contents_of_interleaves store racingWrites.writesTo ?_ racingWrites fun _ => rfl).2 _ ?_ ?_⟩
  · intro place written
    rcases places place written with rfl | rfl | rfl <;> decide
  · decide
  · intro place written
    rcases places place written with rfl | rfl | rfl <;> decide

end Store

end ReviewChecks
