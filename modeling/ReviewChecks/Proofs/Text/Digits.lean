import ReviewChecks.Text.Digits

/-! # Reading back what is written in digits

Digits are cut off the front of a text as far as they go, so a number that is written in front of other text is read
back only if that text does not start with a digit (`Text.Stops`). With this, a number is read back from its digits,
with and without zeros in front of them, in every base that is used.
-/

namespace ReviewChecks.Text

variable {kind : Char → Bool} {body rest : List Char}

/-- A text does not start with a character of a kind. -/
def Stops (kind : Char → Bool) (text : List Char) : Prop :=
  ∀ c ∈ text.head?, kind c = false

theorem stops_nil : Stops kind [] := by
  intro c member
  cases member

theorem stops_cons {c : Char} (other : kind c = false) : Stops kind (c :: rest) := by
  intro head member
  obtain rfl := Option.some.inj member
  exact other

theorem takeWhile_append (inside : ∀ c ∈ body, kind c = true) (stops : Stops kind rest) :
    (body ++ rest).takeWhile kind = body := by
  rw [List.takeWhile_append_of_pos inside]
  cases rest with
  | nil => simp
  | cons c rest => simp [stops c rfl]

theorem dropWhile_of_stops (stops : Stops kind rest) : rest.dropWhile kind = rest := by
  cases rest with
  | nil => rfl
  | cons c rest => simp [stops c rfl]

theorem dropWhile_append (inside : ∀ c ∈ body, kind c = true) (stops : Stops kind rest) :
    (body ++ rest).dropWhile kind = rest := by
  rw [List.dropWhile_append_of_pos inside]
  exact dropWhile_of_stops stops

theorem spanDigits_append (inside : ∀ c ∈ body, c.isDigit = true) (stops : Stops Char.isDigit rest) :
    spanDigits (body ++ rest) = (body, rest) := by
  rw [spanDigits, takeWhile_append inside stops, dropWhile_append inside stops]

theorem isDigit_of_mem_toDecimal {n : Nat} {c : Char} (member : c ∈ toDecimal n) : c.isDigit = true :=
  Nat.isDigit_of_mem_toDigits (by decide) (by decide) member

theorem toDecimal_ne_nil (n : Nat) : toDecimal n ≠ [] :=
  Nat.toDigits_ne_nil

@[simp] theorem ofDecimal_toDecimal (n : Nat) : ofDecimal (toDecimal n) = n :=
  Nat.ofDigitChars_ten_toDigits

/-- The first digit of a number that is written out. -/
theorem exists_toDecimal_eq_cons (n : Nat) :
    ∃ digit rest, toDecimal n = digit :: rest ∧ digit.isDigit = true := by
  cases written : toDecimal n with
  | nil => exact (toDecimal_ne_nil n written).elim
  | cons digit rest => exact ⟨digit, rest, rfl, isDigit_of_mem_toDecimal (written ▸ List.mem_cons_self)⟩

/-- No zero is written in front of other digits. -/
theorem toDecimal_of_head_zero {n : Nat} (zero : (toDecimal n).head? = some '0') : toDecimal n = ['0'] := by
  suffices none_in_front : ∀ n, (toDecimal n).head? = some '0' → n = 0 by
    rw [none_in_front n zero]
    rfl
  intro n
  induction n using Nat.strongRecOn with
  | ind n ih =>
    intro zero
    rw [toDecimal, Nat.toDigits_eq_if (by decide)] at zero
    split at zero
    next small => simpa using zero
    next large =>
      obtain ⟨digit, rest, front, _⟩ := exists_toDecimal_eq_cons (n / 10)
      have same : (toDecimal (n / 10)).head? = some '0' := by
        rw [← toDecimal, front] at zero
        rw [front]
        exact zero
      have smaller := ih (n / 10) (by omega) same
      omega

theorem toDecimal_ne_zero_cons (n : Nat) (c : Char) (rest : List Char) : toDecimal n ≠ '0' :: c :: rest := by
  intro written
  have single := toDecimal_of_head_zero (congrArg List.head? written)
  rw [single] at written
  cases written

theorem mem_padded {base width n : Nat} {c : Char} (member : c ∈ padded base width n) :
    c = '0' ∨ c ∈ Nat.toDigits base n :=
  (List.mem_append.mp member).imp_left List.eq_of_mem_replicate

theorem isDigit_of_mem_padded {width n : Nat} {c : Char} (member : c ∈ padded 10 width n) : c.isDigit = true := by
  rcases mem_padded member with rfl | member
  · rfl
  · exact isDigit_of_mem_toDecimal member

@[simp] theorem ofDecimal_padded (width n : Nat) : ofDecimal (padded 10 width n) = n := by
  rw [ofDecimal, padded, Nat.ofDigitChars_append, Nat.ofDigitChars_replicate_zero, Nat.mul_zero]
  exact ofDecimal_toDecimal n

theorem length_padded {base width n : Nat} (hbase : 1 < base) (hwidth : 0 < width) (fits : n < base.pow width) :
    (padded base width n).length = width := by
  have short := (Nat.length_toDigits_le_iff hbase hwidth).mpr fits
  simp only [padded, List.length_append, List.length_replicate]
  omega

theorem padded_ne_nil (base width n : Nat) : padded base width n ≠ [] :=
  fun empty => Nat.toDigits_ne_nil (List.append_eq_nil_iff.mp empty).2

theorem digitValue?_digitChar : ∀ {digit : Nat}, digit < 16 → digitValue? digit.digitChar = some digit := by
  decide

theorem ofDigits?_append (base : Nat) (front back : List Char) :
    ofDigits? base (front ++ back) = (ofDigits? base front).bind fun start => back.foldlM (fun n c =>
      match digitValue? c with
      | some value => if value < base then some (n * base + value) else none
      | none => none) start :=
  List.foldlM_append

theorem ofDigits?_replicate_zero {base : Nat} (positive : 0 < base) (count : Nat) :
    ofDigits? base (List.replicate count '0') = some 0 := by
  induction count with
  | zero => rfl
  | succ count ih =>
    rw [List.replicate_succ', ofDigits?_append, ih]
    simp [digitValue?, positive]

theorem ofDigits?_toDigits {base : Nat} (hlow : 1 < base) (hhigh : base ≤ 16) (n : Nat) :
    ofDigits? base (Nat.toDigits base n) = some n := by
  have single : ∀ {digit : Nat}, digit < base → digitValue? digit.digitChar = some digit := fun small =>
    digitValue?_digitChar (by omega)
  induction n using Nat.strongRecOn with
  | ind n ih =>
    rw [Nat.toDigits_eq_if hlow]
    split
    next small => simp [ofDigits?, single small, small]
    next large =>
      have last : n % base < base := Nat.mod_lt n (by omega)
      rw [ofDigits?_append, ih (n / base) (Nat.div_lt_self (by omega) hlow)]
      simp [single last, last, Nat.div_add_mod']

theorem ofDigits?_padded {base : Nat} (hlow : 1 < base) (hhigh : base ≤ 16) (width n : Nat) :
    ofDigits? base (padded base width n) = some n := by
  rw [padded, ofDigits?_append, ofDigits?_replicate_zero (by omega)]
  exact ofDigits?_toDigits hlow hhigh n

/-- Letters name the same digit in either case. -/
theorem digitValue?_toUpper (c : Char) : digitValue? c.toUpper = digitValue? c := by
  have letters : ∀ code < 123, 97 ≤ code → digitValue? (Char.ofNat code).toUpper = digitValue? (Char.ofNat code) := by
    decide
  by_cases lower : 97 ≤ c.toNat ∧ c.toNat ≤ 122
  · simpa using letters c.toNat (by omega) lower.1
  · have unchanged : c.toUpper = c := dif_neg lower
    rw [unchanged]

theorem ofDigits?_map_toUpper (base : Nat) (digits : List Char) :
    ofDigits? base (digits.map Char.toUpper) = ofDigits? base digits := by
  rw [ofDigits?, List.foldlM_map]
  simp only [digitValue?_toUpper]
  rfl

end ReviewChecks.Text
