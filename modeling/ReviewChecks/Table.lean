/-!
# Tables

A table maps names to values. Its entries are kept in ascending order of the names, each name once, so that two tables
with the same entries are equal however they were filled. Main statements: looking a name up after an insertion gives
the inserted value for that name and the old one for every other (`find?_insert`).
-/

namespace ReviewChecks

/-- Values by name, in ascending order of the names. -/
structure Table (α : Type) where
  entries : List (String × α)
  ascending : (entries.map Prod.fst).Pairwise (· < ·) := by exact List.Pairwise.nil

namespace Table

variable {α β : Type}

/-- Puts a value under a name into ascending entries, in place of the one that stood there. -/
def place (name : String) (value : α) : List (String × α) → List (String × α)
  | [] => [(name, value)]
  | entry :: rest =>
    if name < entry.1 then (name, value) :: entry :: rest
    else if entry.1 < name then entry :: place name value rest
    else (name, value) :: rest

theorem mem_place {name : String} {value : α} {entry : String × α} :
    ∀ {entries : List (String × α)},
      entry ∈ place name value entries → entry = (name, value) ∨ entry ∈ entries
  | [], member => by simpa [place] using member
  | head :: rest, member => by
    unfold place at member
    split at member
    next => simpa using member
    next =>
      split at member
      next =>
        rcases List.mem_cons.mp member with rfl | later
        · exact .inr List.mem_cons_self
        · exact (mem_place later).imp_right (List.mem_cons_of_mem _)
      next =>
        rcases List.mem_cons.mp member with rfl | later
        · exact .inl rfl
        · exact .inr (List.mem_cons_of_mem _ later)

/-- A name that comes neither before nor after another is the same. -/
theorem eq_of_not_lt {name other : String} (before : ¬ name < other) (after : ¬ other < name) : other = name := by
  rcases Std.lt_trichotomy name other with less | same | greater
  · exact absurd less before
  · exact same.symm
  · exact absurd greater after

theorem ascending_place (name : String) (value : α) :
    ∀ {entries : List (String × α)}, (entries.map Prod.fst).Pairwise (· < ·) →
      ((place name value entries).map Prod.fst).Pairwise (· < ·)
  | [], _ => by simp [place]
  | head :: rest, ascending => by
    obtain ⟨first, others⟩ := List.pairwise_cons.mp (List.map_cons ▸ ascending)
    unfold place
    split
    next before =>
      refine List.pairwise_cons.mpr ⟨fun other member => ?_, ascending⟩
      rcases List.mem_cons.mp member with rfl | later
      · exact before
      · exact String.lt_trans before (first other later)
    next =>
      split
      next after =>
        refine List.pairwise_cons.mpr ⟨fun other member => ?_, ascending_place name value others⟩
        obtain ⟨entry, placed, rfl⟩ := List.mem_map.mp member
        rcases mem_place placed with rfl | held
        · exact after
        · exact first _ (List.mem_map_of_mem held)
      next before after => simpa [eq_of_not_lt before after] using ascending

def empty : Table α where
  entries := []

instance : Inhabited (Table α) := ⟨empty⟩

/-- The table with a value put under a name; a value already there is replaced. -/
def insert (table : Table α) (name : String) (value : α) : Table α where
  entries := place name value table.entries
  ascending := ascending_place name value table.ascending

def find? (table : Table α) (name : String) : Option α :=
  table.entries.lookup name

/-- The table of a list of pairs, where of equal names the last one counts. -/
def ofList (pairs : List (String × α)) : Table α :=
  pairs.foldl (fun table pair => table.insert pair.1 pair.2) empty

def names (table : Table α) : List String :=
  table.entries.map Prod.fst

def values (table : Table α) : List α :=
  table.entries.map Prod.snd

def map (f : α → β) (table : Table α) : Table β where
  entries := table.entries.map fun entry => (entry.1, f entry.2)
  ascending := by simpa [Function.comp_def] using table.ascending

@[ext]
theorem ext_entries {left right : Table α} (same : left.entries = right.entries) : left = right := by
  cases left
  cases right
  cases same
  rfl

instance [DecidableEq α] : DecidableEq (Table α) := fun left right =>
  decidable_of_iff (left.entries = right.entries) ⟨ext_entries, fun same => same ▸ rfl⟩

theorem lookup_place (name : String) (value : α) (other : String) :
    ∀ (entries : List (String × α)),
      (place name value entries).lookup other = if other = name then some value else entries.lookup other
  | [] => by
    by_cases own : other = name
    · simp [place, own]
    · simp [place, List.lookup_cons, beq_eq_false_iff_ne.mpr own, own]
  | (key, held) :: rest => by
    unfold place
    split
    next =>
      by_cases own : other = name
      · simp [own]
      · simp [List.lookup_cons, beq_eq_false_iff_ne.mpr own, own]
    next =>
      split
      next after =>
        by_cases first : other = key
        · have different : key ≠ name := by
            rintro rfl
            exact String.lt_irrefl _ after
          simp [first, different]
        · simp [List.lookup_cons, beq_eq_false_iff_ne.mpr first, lookup_place name value other rest]
      next before after =>
        obtain rfl : key = name := eq_of_not_lt before after
        by_cases own : other = key
        · simp [own]
        · simp [List.lookup_cons, beq_eq_false_iff_ne.mpr own, own]

/-- An insertion sets the value of its own name and no other. -/
theorem find?_insert (table : Table α) (name other : String) (value : α) :
    (table.insert name value).find? other = if other = name then some value else table.find? other :=
  lookup_place name value other table.entries

@[simp] theorem find?_empty (name : String) : (empty : Table α).find? name = none := rfl

@[simp] theorem find?_map (f : α → β) (table : Table α) (name : String) :
    (table.map f).find? name = (table.find? name).map f := by
  simp only [find?, map]
  induction table.entries with
  | nil => rfl
  | cons entry rest ih =>
    obtain ⟨key, held⟩ := entry
    simp only [List.map_cons, List.lookup_cons, ih]
    split <;> rfl

end Table

end ReviewChecks
