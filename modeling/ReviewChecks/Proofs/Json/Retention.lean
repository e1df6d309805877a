import ReviewChecks.Proofs.Json.Records

/-! # What can be kept unread

Everything that is made of texts, truth words and words of at most 64 bits can be kept unread, as deep as the limit
allows: the estimate of such a number is far below the bound of floating point (`Json.Number.isFinite_natural`).
-/

namespace ReviewChecks

namespace Decimal

/-- Rounding at most doubles a number. -/
theorem roundBinary_le (n : Nat) : roundBinary n ≤ 2 * n := by
  unfold roundBinary
  by_cases zero : n = 0
  · subst zero
    decide
  have small : Nat.pow 2 (n.log2 + 1 - 53) ≤ n :=
    Nat.le_trans (Nat.pow_le_pow_right (by decide) (by omega)) (Nat.log2_self_le zero)
  generalize Nat.pow 2 (n.log2 + 1 - 53) = unit at small ⊢
  have down : n / unit * unit ≤ n := Nat.div_mul_le_self n unit
  have up : (n / unit + 1) * unit = n / unit * unit + unit := Nat.succ_mul ..
  dsimp only
  split <;> omega

theorem two_words_lt_overflowBound : 2 * UInt64.size < overflowBound := by
  decide +kernel

end Decimal

namespace Json

/-- A word is finite in floating point. -/
theorem Number.isFinite_natural {n : Nat} (word : n < UInt64.size) : (Number.natural n).isFinite = true := by
  have leading : Decimal.leadingDigits n = (n, 0) := by
    rw [Decimal.leadingDigits, if_pos word]
  have one : Decimal.roundBinary (Nat.pow 10 ((0 : Int) + (0 : Nat)).toNat) = 1 := by decide
  have bound := Decimal.roundBinary_le n
  have large := Decimal.two_words_lt_overflowBound
  rw [isFinite, Decimal.hasFiniteEstimate, leading]
  dsimp only
  split
  · rfl
  · have small : ¬ 308 < (0 : Int) + (0 : Nat) := by decide
    rw [if_neg small, one, Nat.mul_one, decide_eq_true_eq]
    omega

variable {limit : Nat}

theorem isRetainable_text (value : String) : isRetainable limit (text value) = true := by
  rw [text, isRetainable]
  rfl

theorem isRetainable_bool (value : Bool) : isRetainable limit (.bool value) = true := by
  rw [isRetainable]

theorem isRetainable_nat {n : Nat} (word : n < UInt64.size) : isRetainable limit (nat n) = true := by
  rw [nat, isRetainable, Number.isFinite_natural word]

theorem areRetainable_iff {values : List Json} :
    areRetainable limit values = true ↔ ∀ value ∈ values, isRetainable limit value = true := by
  induction values with
  | nil => simp [areRetainable]
  | cons value values ih => simp [areRetainable, ih]

theorem fieldsRetainable_iff {fields : List (String × Json)} :
    fieldsRetainable limit (fields.map fun field => (some field.1, field.2)) = true ↔
      ∀ field ∈ fields, isRetainable limit field.2 = true := by
  induction fields with
  | nil => simp [fieldsRetainable]
  | cons field fields ih => simp [fieldsRetainable, ih]

theorem isRetainable_list {α : Type} {encode : α → Json} {values : List α}
    (each : ∀ value, isRetainable limit (encode value) = true) :
    isRetainable (limit + 1) (list encode values) = true := by
  rw [list, isRetainable, areRetainable_iff]
  intro json member
  obtain ⟨value, _, rfl⟩ := List.mem_map.mp member
  exact each value

theorem isRetainable_record {fields : List (String × Json)}
    (each : ∀ field ∈ fields, isRetainable limit field.2 = true) :
    isRetainable (limit + 1) (record fields) = true := by
  rw [record, isRetainable]
  exact fieldsRetainable_iff.mpr each

/-- Whether every field that is there can be kept unread. -/
def SlotsRetainable (limit : Nat) (fields : List (String × Option Json)) : Prop :=
  ∀ field ∈ fields, ∀ value ∈ field.2, isRetainable limit value = true

namespace SlotsRetainable

variable {name : String} {fields others : List (String × Option Json)}

theorem nil : SlotsRetainable limit [] := by
  intro field member
  cases member

theorem cons {value : Option Json} (own : ∀ json ∈ value, isRetainable limit json = true)
    (rest : SlotsRetainable limit fields) : SlotsRetainable limit ((name, value) :: fields) := by
  intro field member
  rcases List.mem_cons.mp member with rfl | member
  · exact own
  · exact rest field member

theorem some {value : Json} (own : isRetainable limit value = true) (rest : SlotsRetainable limit fields) :
    SlotsRetainable limit ((name, Option.some value) :: fields) :=
  rest.cons fun _ member => Option.some.inj member ▸ own

theorem map {α : Type} {encode : α → Json} (own : ∀ value, isRetainable limit (encode value) = true)
    (value : Option α) (rest : SlotsRetainable limit fields) :
    SlotsRetainable limit ((name, value.map encode) :: fields) := by
  refine rest.cons fun json member => ?_
  obtain ⟨value, _, rfl⟩ := Option.map_eq_some_iff.mp member
  exact own value

theorem append (front : SlotsRetainable limit fields) (back : SlotsRetainable limit others) :
    SlotsRetainable limit (fields ++ others) := by
  intro field member
  rcases List.mem_append.mp member with member | member
  · exact front field member
  · exact back field member

theorem fieldsRetainable (each : SlotsRetainable limit fields) :
    fieldsRetainable limit ((present fields).map fun field => (Option.some field.1, field.2)) = true := by
  rw [fieldsRetainable_iff]
  intro field member
  obtain ⟨slot, listed, shown⟩ := List.mem_filterMap.mp member
  obtain ⟨value, there, rfl⟩ := Option.map_eq_some_iff.mp shown
  exact each slot listed value there

end SlotsRetainable

end Json

end ReviewChecks
