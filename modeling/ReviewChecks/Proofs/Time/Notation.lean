import ReviewChecks.Proofs.Text.Digits
import ReviewChecks.Time.Notation

/-! # Reading timestamps that were written

A timestamp is written in UTC, so reading it moves it to no other day, and what is read is the timestamp itself
(`Timestamp.parse?_print`): in every year of the range, with or without a sign in front of it, with each length of the
fraction, and in a leap second.
-/

namespace ReviewChecks

theorem Date.month_le (date : Date) : date.month ≤ 12 := by
  have days := Nat.le_trans date.one_le_day date.day_le
  unfold daysInMonth at days
  split at days <;> omega

theorem Date.day_le_thirtyOne (date : Date) : date.day ≤ 31 := by
  have days := date.day_le
  unfold daysInMonth at days
  split at days <;> first | omega | (split at days <;> omega)

namespace Timestamp

/-- Clocks in UTC show a point in time as it is. -/
theorem ofLocal?_utc (time : Timestamp) :
    ofLocal? time.date time.hour time.minute time.second time.nanosecond 0 = some time := by
  have hour := time.hour_lt
  have minute := time.minute_lt
  have sameDay : ¬ ((time.hour * 60 + time.minute : Nat) - 0 : Int) < 0 ∧
      ¬ 1440 ≤ ((time.hour * 60 + time.minute : Nat) - 0 : Int) := by omega
  have minutes : (((time.hour * 60 + time.minute : Nat) - 0 : Int) % 1440).toNat = time.hour * 60 + time.minute := by
    omega
  simp only [ofLocal?, of?_self, Option.bind_eq_bind, Option.bind_some, sameDay, ↓reduceIte, minutes]
  rw [show (time.hour * 60 + time.minute) / 60 = time.hour by omega,
    show (time.hour * 60 + time.minute) % 60 = time.minute by omega, of?_self]

variable {rest : List Char}

private theorem isBlank_of_isDigit {c : Char} (isDigit : c.isDigit = true) : Text.isBlank c = false := by
  simp only [Char.isDigit, Bool.and_eq_true, decide_eq_true_eq, ge_iff_le, UInt32.le_iff_toNat_le] at isDigit
  have range : 48 ≤ c.toNat ∧ c.toNat ≤ 57 := isDigit
  simp [Text.isBlank]
  omega

/-- Digits in front of a text are in front of it without its blanks, too. -/
private theorem trimStart_of_isDigit {digits : List Char} (some_digit : digits ≠ [])
    (inside : ∀ c ∈ digits, c.isDigit = true) (rest : List Char) :
    Text.trimStart (digits ++ rest) = digits ++ rest := by
  cases digits with
  | nil => exact (some_digit rfl).elim
  | cons digit digits =>
    exact Text.dropWhile_of_stops (Text.stops_cons (isBlank_of_isDigit (inside digit List.mem_cons_self)))

theorem number?_padded {width n : Nat} (positive : 0 < width) (fits : n < Nat.pow 10 width) (rest : List Char) :
    number? width (Text.padded 10 width n ++ rest) = some (n, rest) := by
  have digits : ∀ c ∈ Text.padded 10 width n, c.isDigit = true := fun c => Text.isDigit_of_mem_padded
  have length := Text.length_padded (by decide) positive fits
  have front : (Text.padded 10 width n ++ rest).take width = Text.padded 10 width n := by
    rw [List.take_append_of_le_length (Nat.le_of_eq length.symm), List.take_of_length_le (Nat.le_of_eq length)]
  have back : (Text.padded 10 width n ++ rest).drop width = rest := by
    rw [List.drop_append_of_le_length (Nat.le_of_eq length.symm), List.drop_of_length_le (Nat.le_of_eq length)]
    rfl
  have all : (Text.padded 10 width n).takeWhile Char.isDigit = Text.padded 10 width n := by
    simpa using Text.takeWhile_append digits Text.stops_nil
  rw [number?, trimStart_of_isDigit (Text.padded_ne_nil 10 width n) digits, front, all]
  simp [Text.padded_ne_nil, length, back]

theorem mark?_cons {mark : Char} (shown : Text.isBlank mark = false) (rest : List Char) :
    mark? mark (mark :: rest) = some rest := by
  have front : Text.trimStart (mark :: rest) = mark :: rest := Text.dropWhile_of_stops (Text.stops_cons shown)
  simp [mark?, front]

theorem year?_printYear (year : Int) (rest : List Char) :
    year? (printYear year ++ '-' :: rest) = some (year, '-' :: rest) := by
  have digits : ∀ c ∈ Text.padded 10 4 year.natAbs, c.isDigit = true := fun c => Text.isDigit_of_mem_padded
  have dash : Text.Stops Char.isDigit ('-' :: rest) := Text.stops_cons rfl
  have signed : year?.signed? (Text.padded 10 4 year.natAbs ++ '-' :: rest) = some (year.natAbs, '-' :: rest) := by
    simp [year?.signed?, Text.spanDigits_append digits dash, Text.padded_ne_nil]
  unfold printYear
  split
  next negative =>
    have front : Text.trimStart ('-' :: Text.padded 10 4 year.natAbs ++ '-' :: rest) =
        '-' :: (Text.padded 10 4 year.natAbs ++ '-' :: rest) := rfl
    simp only [year?, front, signed, Option.map_some, Option.some.injEq, Prod.mk.injEq, and_true]
    omega
  next nonnegative =>
    split
    next large =>
      have front : Text.trimStart ('+' :: Text.padded 10 4 year.natAbs ++ '-' :: rest) =
          '+' :: (Text.padded 10 4 year.natAbs ++ '-' :: rest) := rfl
      simp only [year?, front, signed, Option.map_some, Option.some.injEq, Prod.mk.injEq, and_true]
      omega
    next small =>
      have fits : year.natAbs < 10 ^ 4 := by omega
      have reads := number?_padded (by decide) fits ('-' :: rest)
      have front := trimStart_of_isDigit (Text.padded_ne_nil 10 4 year.natAbs) digits ('-' :: rest)
      obtain ⟨digit, tail, written⟩ := List.exists_cons_of_ne_nil (Text.padded_ne_nil 10 4 year.natAbs)
      have isDigit := digits digit (written ▸ List.mem_cons_self)
      have unsigned : digit ≠ '-' ∧ digit ≠ '+' := by
        constructor <;> (rintro rfl; cases isDigit)
      rw [written, List.cons_append] at reads front ⊢
      have absolute : ((year.natAbs : Nat) : Int) = year := by omega
      rw [year?, front]
      split
      next same => exact (unsigned.1 (List.cons.inj same).1).elim
      next same => exact (unsigned.2 (List.cons.inj same).1).elim
      next => simp only [reads, Option.map_some, absolute]

theorem fraction?_printFraction (nanosecond : Nat) (small : nanosecond < 1000000000) :
    fraction? (printFraction nanosecond ++ ['Z']) = some (nanosecond, ['Z']) := by
  have reads : ∀ {width n : Nat}, 0 < width → width ≤ 9 → n < 10 ^ width →
      fraction? ('.' :: Text.padded 10 width n ++ ['Z']) = some (n * 10 ^ (9 - width), ['Z']) := by
    intro width n positive short fits
    have digits : ∀ c ∈ Text.padded 10 width n, c.isDigit = true := fun c => Text.isDigit_of_mem_padded
    have length := Text.length_padded (by decide) positive fits
    have utc : Text.Stops Char.isDigit ['Z'] := Text.stops_cons rfl
    have kept : (Text.padded 10 width n).take 9 = Text.padded 10 width n :=
      List.take_of_length_le (by omega)
    simp [fraction?, Text.spanDigits_append digits utc, kept, length, Text.padded_ne_nil]
  have milli : 10 ^ (9 - 3) = 1000000 := rfl
  have micro : 10 ^ (9 - 6) = 1000 := rfl
  unfold printFraction
  split
  next whole =>
    rw [whole]
    rfl
  next =>
    split
    next millis =>
      rw [reads (by decide) (by decide) (by omega), milli, Nat.div_mul_cancel (Nat.dvd_of_mod_eq_zero millis)]
    next =>
      split
      next micros =>
        rw [reads (by decide) (by decide) (by omega), micro, Nat.div_mul_cancel (Nat.dvd_of_mod_eq_zero micros)]
      next => rw [reads (by decide) (by decide) (by omega), Nat.sub_self, Nat.pow_zero, Nat.mul_one]

/-- What is written after a date is read up to its end. -/
theorem parseChars?_printChars (time : Timestamp) : parseChars? time.printChars = some time := by
  have month : time.date.month < 10 ^ 2 := by have := time.date.month_le; omega
  have day : time.date.day < 10 ^ 2 := by have := time.date.day_le_thirtyOne; omega
  have hour : time.hour < 10 ^ 2 := by have := time.hour_lt; omega
  have minute : time.minute < 10 ^ 2 := by have := time.minute_lt; omega
  have second : time.second < 10 ^ 2 := by have := time.second_le; omega
  have positive : 0 < 2 := by decide
  have offset : offset? (Text.trimStart ['Z']) = some (0, []) := rfl
  have written : time.printChars = printYear time.date.year ++ '-' :: (Text.padded 10 2 time.date.month ++
      '-' :: (Text.padded 10 2 time.date.day ++ 'T' :: (Text.padded 10 2 time.hour ++
        ':' :: (Text.padded 10 2 time.minute ++ ':' :: (Text.padded 10 2 time.second ++
          (printFraction time.nanosecond ++ ['Z'])))))) := by
    simp [printChars]
  rw [written, parseChars?]
  -- Each part is read in front of the rest of the text, in the order in which the reader asks for them.
  refine Option.bind_eq_some_iff.mpr ⟨_, year?_printYear time.date.year _, ?_⟩
  refine Option.bind_eq_some_iff.mpr ⟨_, mark?_cons rfl _, ?_⟩
  refine Option.bind_eq_some_iff.mpr ⟨_, number?_padded positive month _, ?_⟩
  refine Option.bind_eq_some_iff.mpr ⟨_, mark?_cons rfl _, ?_⟩
  refine Option.bind_eq_some_iff.mpr ⟨_, number?_padded positive day _, ?_⟩
  refine Option.bind_eq_some_iff.mpr ⟨_, number?_padded positive hour _, ?_⟩
  refine Option.bind_eq_some_iff.mpr ⟨_, mark?_cons rfl _, ?_⟩
  refine Option.bind_eq_some_iff.mpr ⟨_, number?_padded positive minute _, ?_⟩
  refine Option.bind_eq_some_iff.mpr ⟨_, mark?_cons rfl _, ?_⟩
  refine Option.bind_eq_some_iff.mpr ⟨_, number?_padded positive second _, ?_⟩
  refine Option.bind_eq_some_iff.mpr ⟨_, fraction?_printFraction _ time.nanosecond_lt, ?_⟩
  refine Option.bind_eq_some_iff.mpr ⟨_, offset, ?_⟩
  refine Option.bind_eq_some_iff.mpr ⟨_, Date.of?_self time.date, ?_⟩
  exact time.ofLocal?_utc

/-- Every timestamp is read back from its text. -/
theorem parse?_print (time : Timestamp) : parse? time.print = some time := by
  rw [parse?, print, String.toList_ofList, parseChars?_printChars]

end Timestamp

end ReviewChecks
