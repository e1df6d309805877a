import Mathlib.Data.List.Induction
import Mathlib.Data.List.Perm.Basic
import ReviewChecks.Table

/-! # Tables from their entries

A table does not show in which order its entries came: filled with its own entries in any order, each of them once,
it is the same table (`Table.ofList_of_perm`). Of several pairs with one name that a table is filled with, the last one
counts (`Table.find?_ofList_eq`).
-/

namespace ReviewChecks.Table

variable {α : Type}

theorem place_perm {name : String} (value : α) :
    ∀ {entries : List (String × α)}, name ∉ entries.map Prod.fst →
      (place name value entries).Perm ((name, value) :: entries)
  | [], _ => .refl _
  | entry :: rest, absent => by
    obtain ⟨other, absent⟩ := not_or.mp (List.mem_cons.not.mp absent)
    unfold place
    split
    · exact .refl _
    · split
      · exact ((place_perm value absent).cons entry).trans (.swap ..)
      · next before after => exact (other (eq_of_not_lt before after).symm).elim

theorem foldl_insert_perm (pairs : List (String × α)) (table : Table α)
    (distinct : (pairs.map Prod.fst ++ table.names).Nodup) :
    (pairs.foldl (fun table pair => table.insert pair.1 pair.2) table).entries.Perm (pairs ++ table.entries) := by
  induction pairs generalizing table with
  | nil => exact .refl _
  | cons pair pairs ih =>
    obtain ⟨absent, others⟩ := List.nodup_cons.mp distinct
    have placed : (table.insert pair.1 pair.2).entries.Perm (pair :: table.entries) :=
      place_perm pair.2 fun member => absent (List.mem_append_right _ member)
    have names : (pairs.map Prod.fst ++ (table.insert pair.1 pair.2).names).Perm
        (pair.1 :: (pairs.map Prod.fst ++ table.names)) :=
      ((placed.map Prod.fst).append_left _).trans List.perm_middle
    have filled := ih (table.insert pair.1 pair.2) (names.nodup_iff.mpr distinct)
    exact filled.trans ((placed.append_left pairs).trans List.perm_middle)

theorem nodup_names (table : Table α) : table.names.Nodup := by
  refine table.ascending.imp fun {one other} (before : one < other) => ?_
  rintro rfl
  exact String.lt_irrefl one before

/-- Where each name stands once, the value under a name is that of the pair of the name. -/
theorem lookup_eq_some_iff_mem {pairs : List (String × α)} (distinct : (pairs.map Prod.fst).Nodup) {name : String}
    {value : α} : pairs.lookup name = some value ↔ (name, value) ∈ pairs := by
  rw [List.lookup_eq_some_iff]
  constructor
  · rintro ⟨before, after, rfl, _⟩
    exact List.mem_append_right _ List.mem_cons_self
  · intro member
    obtain ⟨before, after, rfl⟩ := List.append_of_mem member
    refine ⟨before, after, rfl, fun other earlier => ?_⟩
    rw [List.map_append, List.map_cons, List.nodup_append] at distinct
    exact bne_iff_ne.mpr (distinct.2.2 other.1 (List.mem_map_of_mem earlier) name List.mem_cons_self).symm

/-- The value under a name is that of the entry of the name. -/
theorem find?_eq_some_iff {table : Table α} {name : String} {value : α} :
    table.find? name = some value ↔ (name, value) ∈ table.entries :=
  lookup_eq_some_iff_mem table.nodup_names

theorem mem_names_iff {table : Table α} {name : String} :
    name ∈ table.names ↔ ∃ value, table.find? name = some value := by
  simp only [names, List.mem_map, Prod.exists, exists_and_right, exists_eq_right, find?_eq_some_iff]

/-- Two tables with the same names have them in the same order. -/
theorem names_eq_of_mem_iff {β : Type} {left : Table α} {right : Table β}
    (same : ∀ name, name ∈ left.names ↔ name ∈ right.names) : left.names = right.names := by
  have order := (List.perm_ext_iff_of_nodup left.nodup_names right.nodup_names).mpr same
  refine List.Perm.eq_of_pairwise (fun one other _ _ before after => ?_) left.ascending right.ascending order
  exact (String.lt_irrefl one (String.lt_trans before after)).elim

/-- Two tables with the same entries in any order are the same. -/
theorem eq_of_perm {left right : Table α} (same : left.entries.Perm right.entries) : left = right := by
  have sorted : ∀ table : Table α, table.entries.Pairwise fun one other => one.1 < other.1 := fun table =>
    List.pairwise_map.mp table.ascending
  refine ext_entries (List.Perm.eq_of_pairwise ?_ (sorted left) (sorted right) same)
  intro one other _ _ before after
  exact (String.lt_irrefl _ (String.lt_trans before after)).elim

/-- A table that is filled with pairs of distinct names has these as its entries. -/
theorem entries_ofList_perm {pairs : List (String × α)} (distinct : (pairs.map Prod.fst).Nodup) :
    (ofList pairs).entries.Perm pairs := by
  have filled := foldl_insert_perm pairs empty
  rw [show (empty : Table α).names = [] from rfl, show (empty : Table α).entries = [] from rfl, List.append_nil,
    List.append_nil] at filled
  exact filled distinct

/-- The entries of a table make up the table, in whatever order they come. -/
theorem ofList_of_perm {table : Table α} {pairs : List (String × α)} (order : pairs.Perm table.entries) :
    ofList pairs = table :=
  eq_of_perm ((entries_ofList_perm ((order.map Prod.fst).nodup_iff.mpr table.nodup_names)).trans order)

/-- The value under a name is that of the last pair of the name. -/
theorem find?_ofList_eq (pairs : List (String × α)) (name : String) :
    (ofList pairs).find? name = pairs.reverse.lookup name := by
  induction pairs using List.reverseRecOn with
  | nil => rfl
  | append_singleton pairs pair ih =>
    obtain ⟨key, value⟩ := pair
    have filled : ofList (pairs ++ [(key, value)]) = (ofList pairs).insert key value := List.foldl_concat ..
    rw [filled, find?_insert, ih, List.reverse_concat, List.lookup_cons]
    by_cases own : name = key
    · simp [own]
    · simp [own, beq_eq_false_iff_ne.mpr own]

theorem find?_ofList {pairs : List (String × α)} (distinct : (pairs.map Prod.fst).Nodup) (name : String) :
    (ofList pairs).find? name = pairs.lookup name := by
  ext value
  rw [find?_eq_some_iff, (entries_ofList_perm distinct).mem_iff, lookup_eq_some_iff_mem distinct]

end ReviewChecks.Table
