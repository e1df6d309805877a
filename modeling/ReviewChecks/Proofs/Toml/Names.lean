import Mathlib.Data.List.Nodup
import ReviewChecks.Proofs.Toml.Documents

/-! # A document names each field once

Whatever adds to a table puts a name into it that is new, or changes what stands under a name that is there
(`Toml.Regular.modifyField?`). So in every table of a document that is read, however it came about, each name stands
once (`Toml.regular_of_parse?`).
-/

namespace ReviewChecks.Toml

/-- In every table of a value each name stands once. -/
inductive NamesOnce : Toml → Prop where
  | string (value : String) : NamesOnce (.string value)
  | integer (value : Int) : NamesOnce (.integer value)
  | float (value : Float) : NamesOnce (.float value)
  | boolean (value : Bool) : NamesOnce (.boolean value)
  | dateTime (text : String) : NamesOnce (.dateTime text)
  | array {items : List Toml} : (∀ item ∈ items, NamesOnce item) → NamesOnce (.array items)
  | tables {items : List Fields} : (∀ fields ∈ items, (fields.map Prod.fst).Nodup) →
      (∀ fields ∈ items, ∀ field ∈ fields, NamesOnce field.2) → NamesOnce (.tables items)
  | table (origin : Origin) {fields : Fields} : (fields.map Prod.fst).Nodup →
      (∀ field ∈ fields, NamesOnce field.2) → NamesOnce (.table origin fields)

/-- The fields of a table in which each name stands once, and so in every table inside. -/
structure Regular (fields : Fields) : Prop where
  nodup : (fields.map Prod.fst).Nodup
  values : ∀ field ∈ fields, NamesOnce field.2

theorem Regular.empty : Regular [] :=
  ⟨List.nodup_nil, fun _ member => nomatch member⟩

theorem Regular.table {fields : Fields} (regular : Regular fields) (origin : Origin) :
    NamesOnce (.table origin fields) :=
  .table origin regular.nodup regular.values

theorem namesOnce_tables_iff {items : List Fields} :
    NamesOnce (.tables items) ↔ ∀ fields ∈ items, Regular fields := by
  constructor
  · rintro (_ | _ | _ | _ | _ | _ | ⟨nodup, values⟩ | _)
    exact fun fields member => ⟨nodup fields member, values fields member⟩
  · exact fun regular => .tables (fun fields member => (regular fields member).nodup)
      fun fields member => (regular fields member).values

theorem regular_of_table {origin : Origin} {fields : Fields} (once : NamesOnce (.table origin fields)) :
    Regular fields := by
  cases once with
  | table _ nodup values => exact ⟨nodup, values⟩

/-- A change of the value under a name does what it should if it makes a regular value of a regular one. -/
theorem Regular.modifyField? {name : String} {change : Option Toml → Option Toml} {fields changed : Fields}
    (regular : Regular fields)
    (keeps : ∀ old new, (∀ value, old = some value → NamesOnce value) → change old = some new → NamesOnce new)
    (modified : Toml.modifyField? name change fields = some changed) : Regular changed := by
  by_cases present : name ∈ fields.map Prod.fst
  · obtain ⟨⟨_, value⟩, member, rfl⟩ := List.mem_map.mp present
    obtain ⟨front, back, rfl⟩ := List.append_of_mem member
    have names := regular.nodup
    rw [List.map_append, List.map_cons] at names
    have absent := fun held => (List.nodup_append.mp names).2.2 _ held _ List.mem_cons_self rfl
    rw [modifyField?_present absent, Option.map_eq_some_iff] at modified
    obtain ⟨new, made, rfl⟩ := modified
    refine ⟨by rw [List.map_append, List.map_cons]; exact names, fun field held => ?_⟩
    rcases List.mem_append.mp held with held | held
    · exact regular.values field (List.mem_append_left _ held)
    · rcases List.mem_cons.mp held with rfl | held
      · exact keeps _ new (fun _ same => Option.some.inj same ▸ regular.values _ member) made
      · exact regular.values field (List.mem_append_right _ (List.mem_cons_of_mem _ held))
  · rw [modifyField?_absent present, Option.map_eq_some_iff] at modified
    obtain ⟨new, made, rfl⟩ := modified
    refine ⟨?_, fun field held => ?_⟩
    · rw [List.map_append]
      refine List.nodup_append.mpr ⟨regular.nodup, List.nodup_singleton _, ?_⟩
      intro one held other new same
      rw [same, List.mem_singleton.mp new] at held
      exact present held
    · rcases List.mem_append.mp held with held | held
      · exact regular.values field held
      · rw [List.mem_singleton.mp held]
        exact keeps none new (fun _ same => nomatch same) made

theorem forall_modifyLast? {α : Type} {property : α → Prop} {change : α → Option α} {items changed : List α}
    (all : ∀ item ∈ items, property item) (keeps : ∀ old new, property old → change old = some new → property new)
    (modified : modifyLast? change items = some changed) : ∀ item ∈ changed, property item := by
  fun_induction modifyLast? change items generalizing changed with
  | case1 => cases modified
  | case2 item =>
    obtain ⟨new, made, rfl⟩ := Option.map_eq_some_iff.mp modified
    simpa using keeps item new (all item List.mem_cons_self) made
  | case3 item rest _ ih =>
    obtain ⟨others, made, rfl⟩ := Option.map_eq_some_iff.mp modified
    obtain ⟨own, rest⟩ := List.forall_mem_cons.mp all
    exact List.forall_mem_cons.mpr ⟨own, ih rest made⟩

private theorem namesOnce_of_table {change : Fields → Option Fields} {origin : Origin} {inner : Fields} {new : Toml}
    (keeps : ∀ fields changed, Regular fields → change fields = some changed → Regular changed)
    (regular : Regular inner) (made : (change inner).map (.table origin) = some new) : NamesOnce new := by
  obtain ⟨changed, result, rfl⟩ := Option.map_eq_some_iff.mp made
  exact (keeps inner changed regular result).table origin

private theorem namesOnce_of_tables {change : Fields → Option Fields} {items : List Fields} {new : Toml}
    (keeps : ∀ fields changed, Regular fields → change fields = some changed → Regular changed)
    (once : NamesOnce (.tables items)) (made : (modifyLast? change items).map .tables = some new) :
    NamesOnce new := by
  obtain ⟨changed, result, rfl⟩ := Option.map_eq_some_iff.mp made
  exact namesOnce_tables_iff.mpr (forall_modifyLast? (namesOnce_tables_iff.mp once) keeps result)

theorem Regular.define? {value : Toml} (own : NamesOnce value) {name : String} {path : List String}
    {fields changed : Fields} (regular : Regular fields)
    (defined : Toml.define? value name path fields = some changed) : Regular changed := by
  induction path generalizing fields changed with
  | nil =>
    rw [Toml.define?] at defined
    refine regular.modifyField? (fun old new _ made => ?_) defined
    cases old with
    | none => exact Option.some.inj made ▸ own
    | some => cases made
  | cons key path ih =>
    rw [Toml.define?] at defined
    have keeps (fields changed : Fields) (regular : Regular fields) := @ih fields changed regular
    refine regular.modifyField? (fun old new once made => ?_) defined
    split at made
    · exact namesOnce_of_table keeps .empty made
    · exact namesOnce_of_table keeps (regular_of_table (once _ rfl)) made
    · split at made
      · cases made
      · exact namesOnce_of_table keeps (regular_of_table (once _ rfl)) made
    · split at made
      · cases made
      · exact namesOnce_of_tables keeps (once _ rfl) made
    · cases made

/-- A header goes into the table that its first part names. -/
private theorem Regular.descend {inside : Fields → Option Fields}
    (keeps : ∀ fields changed, Regular fields → inside fields = some changed → Regular changed) {key : String}
    {fields changed : Fields} (regular : Regular fields)
    (made : Toml.modifyField? key (fun
      | none => (inside []).map (.table .implied)
      | some (.table .inline _) => none
      | some (.table origin inner) => (inside inner).map (.table origin)
      | some (.tables items) => (modifyLast? inside items).map .tables
      | some _ => none) fields = some changed) : Regular changed := by
  refine regular.modifyField? (fun old new once made => ?_) made
  split at made
  · exact namesOnce_of_table keeps .empty made
  · cases made
  · exact namesOnce_of_table keeps (regular_of_table (once _ rfl)) made
  · exact namesOnce_of_tables keeps (once _ rfl) made
  · cases made

theorem Regular.openTable? {path : List String} {fields changed : Fields} (regular : Regular fields)
    (opened : Toml.openTable? path fields = some changed) : Regular changed := by
  induction path generalizing fields changed with
  | nil => cases opened
  | cons name path ih =>
    cases path with
    | nil =>
      refine regular.modifyField? (fun old new once made => ?_) opened
      split at made
      · exact Option.some.inj made ▸ Regular.empty.table .header
      · exact Option.some.inj made ▸ (regular_of_table (once _ rfl)).table .header
      · cases made
    | cons key path => exact regular.descend (fun _ _ regular => ih regular) opened

theorem Regular.openItem? {path : List String} {fields changed : Fields} (regular : Regular fields)
    (opened : Toml.openItem? path fields = some changed) : Regular changed := by
  induction path generalizing fields changed with
  | nil => cases opened
  | cons name path ih =>
    cases path with
    | nil =>
      refine regular.modifyField? (fun old new once made => ?_) opened
      split at made
      · exact Option.some.inj made ▸ namesOnce_tables_iff.mpr (List.forall_mem_singleton.mpr .empty)
      · refine Option.some.inj made ▸ namesOnce_tables_iff.mpr fun fields member => ?_
        rcases List.mem_append.mp member with member | member
        · exact namesOnce_tables_iff.mp (once _ rfl) fields member
        · exact List.mem_singleton.mp member ▸ .empty
      · cases made
    | cons key path => exact regular.descend (fun _ _ regular => ih regular) opened

theorem Regular.within? {change : Fields → Option Fields}
    (keeps : ∀ fields changed, Regular fields → change fields = some changed → Regular changed)
    {path : List String} {fields changed : Fields} (regular : Regular fields)
    (made : Toml.within? change path fields = some changed) : Regular changed := by
  induction path generalizing fields changed with
  | nil => exact keeps fields changed regular made
  | cons key path ih =>
    rw [Toml.within?] at made
    have inside (fields changed : Fields) (regular : Regular fields) := @ih fields changed regular
    refine regular.modifyField? (fun old new once made => ?_) made
    split at made
    · exact namesOnce_of_table inside (regular_of_table (once _ rfl)) made
    · exact namesOnce_of_tables inside (once _ rfl) made
    · cases made

theorem namesOnce_of_scalar? {text : List Char} {value : Toml} (read : scalar? text = some value) :
    NamesOnce value := by
  unfold scalar? at read
  split at read
  · exact Option.some.inj read ▸ .boolean _
  · split at read
    · exact Option.some.inj read ▸ .boolean _
    · split at read
      · exact Option.some.inj read ▸ .integer _
      · split at read
        · exact Option.some.inj read ▸ .float _
        · split at read
          · exact Option.some.inj read ▸ .dateTime _
          · cases read

/-- What is read with some fuel has each name once: a value, and the rest of an array or of a table. -/
structure ReadsRegular (fuel : Nat) : Prop where
  value : ∀ {depth text value rest}, value? fuel depth text = some (value, rest) → NamesOnce value
  items : ∀ {depth read text value rest}, (∀ item ∈ read, NamesOnce item) →
    items? fuel depth read text = some (value, rest) → NamesOnce value
  fields : ∀ {depth read text value rest}, Regular read → fields? fuel depth read text = some (value, rest) →
    NamesOnce value

theorem namesOnce_array_reverse {read : List Toml} (all : ∀ item ∈ read, NamesOnce item) :
    NamesOnce (.array read.reverse) :=
  .array fun item member => all item (List.mem_reverse.mp member)

theorem readsRegular (fuel : Nat) : ReadsRegular fuel := by
  induction fuel with
  | zero => exact ⟨nofun, nofun, nofun⟩
  | succ fuel ih =>
    constructor
    · intro depth text value rest read
      unfold value? at read
      split at read
      · obtain ⟨_, _, same⟩ := Option.map_eq_some_iff.mp read
        exact (Prod.mk.inj same).1 ▸ .string _
      · obtain ⟨_, _, same⟩ := Option.map_eq_some_iff.mp read
        exact (Prod.mk.inj same).1 ▸ .string _
      · split at read
        · cases read
        · exact ih.items (List.forall_mem_nil NamesOnce) read
      · split at read
        · cases read
        · exact ih.fields .empty read
      · obtain ⟨scalar, written, same⟩ := Option.map_eq_some_iff.mp read
        exact (Prod.mk.inj same).1 ▸ namesOnce_of_scalar? written
    · intro depth done text value rest all read
      unfold items? at read
      split at read
      · exact (Prod.mk.inj (Option.some.inj read)).1 ▸ namesOnce_array_reverse all
      · obtain ⟨⟨item, behind⟩, first, read⟩ := Option.bind_eq_some_iff.mp read
        have more : ∀ other ∈ item :: done, NamesOnce other := List.forall_mem_cons.mpr ⟨ih.value first, all⟩
        dsimp only at read
        split at read
        · exact ih.items more read
        · exact (Prod.mk.inj (Option.some.inj read)).1 ▸ namesOnce_array_reverse more
        · cases read
    · intro depth done text value rest regular read
      unfold fields? at read
      split at read
      · exact (Prod.mk.inj (Option.some.inj read)).1 ▸ regular.table .inline
      · obtain ⟨⟨parts, behind⟩, _, read⟩ := Option.bind_eq_some_iff.mp read
        obtain ⟨⟨path, name⟩, _, read⟩ := Option.bind_eq_some_iff.mp read
        obtain ⟨behind, _, read⟩ := Option.bind_eq_some_iff.mp read
        obtain ⟨⟨own, behind⟩, first, read⟩ := Option.bind_eq_some_iff.mp read
        obtain ⟨next, defined, read⟩ := Option.bind_eq_some_iff.mp read
        have more := regular.define? (ih.value first) defined
        split at read
        · exact ih.fields more read
        · exact (Prod.mk.inj (Option.some.inj read)).1 ▸ more.table .inline
        · cases read

/-- What a statement states has each name once. -/
def Statement.NamesOnce : Statement → Prop
  | .pair _ value => Toml.NamesOnce value
  | .header _ | .itemHeader _ => True

theorem namesOnce_of_statement? {text rest : List Char} {statement : Statement}
    (read : statement? text = some (statement, rest)) : statement.NamesOnce := by
  unfold statement? at read
  split at read
  · obtain ⟨_, _, read⟩ := Option.bind_eq_some_iff.mp read
    obtain ⟨_, _, read⟩ := Option.bind_eq_some_iff.mp read
    obtain ⟨_, _, read⟩ := Option.bind_eq_some_iff.mp read
    exact (Prod.mk.inj (Option.some.inj read)).1 ▸ trivial
  · obtain ⟨_, _, read⟩ := Option.bind_eq_some_iff.mp read
    obtain ⟨_, _, read⟩ := Option.bind_eq_some_iff.mp read
    exact (Prod.mk.inj (Option.some.inj read)).1 ▸ trivial
  · obtain ⟨_, _, read⟩ := Option.bind_eq_some_iff.mp read
    obtain ⟨_, _, read⟩ := Option.bind_eq_some_iff.mp read
    obtain ⟨⟨value, _⟩, written, read⟩ := Option.bind_eq_some_iff.mp read
    exact (Prod.mk.inj (Option.some.inj read)).1 ▸ (readsRegular _).value written

theorem namesOnce_of_statements? {fuel : Nat} {text : List Char} {statements : List Statement}
    (read : statements? fuel text = some statements) : ∀ statement ∈ statements, statement.NamesOnce := by
  induction fuel generalizing text statements with
  | zero => cases read
  | succ fuel ih =>
    rw [statements?] at read
    split at read
    · exact Option.some.inj read ▸ List.forall_mem_nil _
    · obtain ⟨⟨statement, _⟩, first, read⟩ := Option.bind_eq_some_iff.mp read
      obtain ⟨_, _, read⟩ := Option.bind_eq_some_iff.mp read
      obtain ⟨others, more, read⟩ := Option.bind_eq_some_iff.mp read
      exact Option.some.inj read ▸ List.forall_mem_cons.mpr ⟨namesOnce_of_statement? first, ih more⟩

theorem Regular.add? {draft next : Draft} {statement : Statement} (regular : Regular draft.root)
    (once : statement.NamesOnce) (added : draft.add? statement = some next) : Regular next.root := by
  cases statement with
  | pair key value =>
    obtain ⟨⟨path, name⟩, _, added⟩ := Option.bind_eq_some_iff.mp added
    obtain ⟨root, made, added⟩ := Option.bind_eq_some_iff.mp added
    obtain rfl := Option.some.inj added
    exact regular.within? (fun _ _ regular => regular.define? once) made
  | header key =>
    obtain ⟨root, opened, rfl⟩ := Option.map_eq_some_iff.mp added
    exact regular.openTable? opened
  | itemHeader key =>
    obtain ⟨root, opened, rfl⟩ := Option.map_eq_some_iff.mp added
    exact regular.openItem? opened

theorem Regular.foldlM_add? {draft last : Draft} {statements : List Statement} (regular : Regular draft.root)
    (once : ∀ statement ∈ statements, statement.NamesOnce)
    (added : statements.foldlM Draft.add? draft = some last) : Regular last.root := by
  induction statements generalizing draft with
  | nil => exact Option.some.inj added ▸ regular
  | cons statement rest ih =>
    obtain ⟨own, others⟩ := List.forall_mem_cons.mp once
    rw [List.foldlM_cons] at added
    obtain ⟨next, first, added⟩ := Option.bind_eq_some_iff.mp added
    exact ih (regular.add? own first) others added

/-- In every table of a document each name stands once. -/
theorem regular_of_parse? {text : String} {fields : Fields} (parsed : parse? text = some fields) :
    Regular fields := by
  obtain ⟨statements, read, built⟩ := Option.bind_eq_some_iff.mp parsed
  obtain ⟨last, added, rfl⟩ := Option.map_eq_some_iff.mp built
  exact Regular.foldlM_add? .empty (namesOnce_of_statements? read) added

end ReviewChecks.Toml
