import Mathlib.Data.List.Nodup
import ReviewChecks.Json.Record

/-! # Reading records that were written

A record is written as the fields that are there, in the order of declaration (`Json.present`). As long as all names
are different, an object of such fields holds for each name exactly what was written under it
(`Json.Record.ofFields?_present`), whatever further fields stand in it. What a reader of one field makes of that is
said field by field, so that a type's reader and writer are compared by looking names up.
-/

namespace ReviewChecks.Json

variable {α β : Type}

/-- The fields that are there. -/
def present (fields : List (String × Option Json)) : List (String × Json) :=
  fields.filterMap fun field => field.2.map (field.1, ·)

@[simp] theorem present_nil : present [] = [] := rfl

@[simp] theorem present_cons_some (name : String) (value : Json) (fields : List (String × Option Json)) :
    present ((name, some value) :: fields) = (name, value) :: present fields := rfl

@[simp] theorem present_cons_none (name : String) (fields : List (String × Option Json)) :
    present ((name, none) :: fields) = present fields := rfl

@[simp] theorem present_cons_map (name : String) (encode : α → Json) (value : Option α)
    (fields : List (String × Option Json)) :
    present ((name, value.map encode) :: fields) = optionalField name encode value ++ present fields := by
  cases value <;> rfl

theorem present_append (front back : List (String × Option Json)) :
    present (front ++ back) = present front ++ present back :=
  List.filterMap_append

theorem map_fst_present_sublist (fields : List (String × Option Json)) :
    ((present fields).map Prod.fst).Sublist (fields.map Prod.fst) := by
  induction fields with
  | nil => exact List.Sublist.slnil
  | cons field fields ih =>
    obtain ⟨name, value⟩ := field
    cases value with
    | none => exact ih.cons name
    | some value => exact ih.cons_cons name

theorem lookup_present {fields : List (String × Option Json)} (distinct : (fields.map Prod.fst).Nodup)
    (name : String) : (present fields).lookup name = (fields.lookup name).join := by
  induction fields with
  | nil => rfl
  | cons field fields ih =>
    obtain ⟨key, value⟩ := field
    obtain ⟨absent, others⟩ := List.nodup_cons.mp distinct
    rw [List.lookup_cons]
    by_cases same : name = key
    · subst same
      cases value with
      | some value => simp
      | none =>
        have missing : (present fields).lookup name = none := by
          rw [List.lookup_eq_none_iff]
          intro field member
          rw [bne_iff_ne]
          rintro rfl
          exact absent ((map_fst_present_sublist fields).subset (List.mem_map_of_mem member))
        simp [missing]
    · cases value <;> simp [List.lookup_cons, beq_false_of_ne same, ih others]

theorem fieldValue?_written (name : String) (fields : List (String × Json)) :
    fieldValue? name (fields.map fun field => (some field.1, field.2)) = fields.lookup name := by
  induction fields with
  | nil => rfl
  | cons field fields ih =>
    rw [fieldValue?, List.map_cons, List.lookup_cons, List.lookup_cons, Option.some_beq_some]
    rw [fieldValue?] at ih
    rw [ih]

theorem fieldCount_written (name : String) (fields : List (String × Json)) :
    fieldCount name (fields.map fun field => (some field.1, field.2)) = (fields.map Prod.fst).count name := by
  rw [fieldCount, List.countP_map, List.count, List.countP_map]
  rfl

namespace Record

variable {fields : List (String × Option Json)}

/-- The slot of a field that may be there. -/
def slotOf : Option Json → Slot
  | some value => .given value
  | none => .missing

/-- The record that holds what was written. -/
def ofPresent (fields : List (String × Option Json)) : Record where
  slot name := slotOf (fields.lookup name).join

theorem ofFields?_present (distinct : (fields.map Prod.fst).Nodup) (names : List String) :
    ofFields? names ((present fields).map fun field => (some field.1, field.2)) = some (ofPresent fields) := by
  have texts : ((present fields).map fun field => ((some field.1, field.2) : Literal × Json)).all
      (fun field => field.1.isSome) = true := by
    simp
  have once : names.all (fun name => decide (fieldCount name
      ((present fields).map fun field => (some field.1, field.2)) ≤ 1)) = true := by
    rw [List.all_eq_true]
    intro name _
    rw [decide_eq_true_eq, fieldCount_written]
    exact List.nodup_iff_count_le_one.mp (distinct.sublist (map_fst_present_sublist fields)) name
  rw [ofFields?, texts, once]
  simp only [Bool.and_self, ↓reduceIte, Option.some.injEq, ofPresent, mk.injEq]
  funext name
  rw [fieldValue?_written, lookup_present distinct]
  cases (fields.lookup name).join <;> rfl

theorem ofJson?_present (distinct : (fields.map Prod.fst).Nodup) (names : List String) :
    ofJson? names (.record (present fields)) = some (ofPresent fields) :=
  ofFields?_present distinct names

@[simp] theorem required_ofPresent (name : String) (decode : Json → Option α) :
    (ofPresent fields).required name decode = (fields.lookup name).join.bind decode := by
  simp only [required, ofPresent]
  cases (fields.lookup name).join <;> rfl

@[simp] theorem withDefault_ofPresent (name : String) (decode : Json → Option α) (default : α) :
    (ofPresent fields).withDefault name decode default =
      ((fields.lookup name).join.map decode).getD (some default) := by
  simp only [withDefault, ofPresent]
  cases (fields.lookup name).join <;> rfl

/-- What is read for an optional field. -/
def read? (decode : Json → Option α) : Option Json → Option (Option α)
  | none | some .null => some none
  | some value => (decode value).map some

@[simp] theorem optional_ofPresent (name : String) (decode : Json → Option α) :
    (ofPresent fields).optional name decode = read? decode (fields.lookup name).join := by
  simp only [optional, ofPresent]
  cases (fields.lookup name).join with
  | none => rfl
  | some value => cases value <;> rfl

@[simp] theorem reached_ofPresent (name : String) (decode : Json → Option α) :
    (ofPresent fields).reached name decode = read? decode (fields.lookup name).join := by
  simp only [reached, ofPresent]
  cases (fields.lookup name).join with
  | none => rfl
  | some value => cases value <;> rfl

/-- An optional field is read back if its value is, and is not written as `null`. -/
theorem read?_map {encode : α → Json} {decode : Json → Option α} (reads : ∀ value, decode (encode value) = some value)
    (shown : ∀ value, encode value ≠ .null) (value : Option α) : read? decode (value.map encode) = some value := by
  cases value with
  | none => rfl
  | some value =>
    rw [Option.map_some, read?]
    · rw [reads]
      rfl
    · exact shown value

end Record

@[simp] theorem text?_text (value : String) : text? (text value) = some value := rfl

@[simp] theorem bool?_bool (value : Bool) : bool? (.bool value) = some value := rfl

@[simp] theorem read?_text (value : Option String) : Record.read? text? (value.map text) = some value :=
  Record.read?_map text?_text (fun _ => Json.noConfusion) value

/-- Every item of a list is read as what it is to be read as. -/
theorem items_list {encode : α → Json} {decode : Json → Option β} {view : α → β}
    (reads : ∀ value, decode (encode value) = some (view value)) (values : List α) :
    items decode (list encode values) = some (values.map view) := by
  have read : decode ∘ encode = fun value => pure (view value) := funext reads
  rw [list, items, List.mapM_map, read, List.mapM_pure]
  rfl

end ReviewChecks.Json
