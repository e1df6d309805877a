import ReviewChecks.Time.Date

/-!
# Points in time

A point in time as a date and a time of day in UTC, down to nanoseconds. A second numbered sixty is a leap second,
which may end any minute.
-/

namespace ReviewChecks

/-- A point in time, in UTC. -/
structure Timestamp where
  date : Date
  hour : Nat
  minute : Nat
  second : Nat
  nanosecond : Nat
  hour_lt : hour < 24
  minute_lt : minute < 60
  second_le : second ≤ 60
  nanosecond_lt : nanosecond < 1000000000
  /-- The range of years that a timestamp can carry. -/
  year_mem : -262143 ≤ date.year ∧ date.year ≤ 262142
deriving DecidableEq

namespace Timestamp

def of? (date : Date) (hour minute second nanosecond : Nat) : Option Timestamp :=
  if h : hour < 24 ∧ minute < 60 ∧ second ≤ 60 ∧ nanosecond < 1000000000 ∧
      -262143 ≤ date.year ∧ date.year ≤ 262142 then
    some {
      date, hour, minute, second, nanosecond
      hour_lt := h.1
      minute_lt := h.2.1
      second_le := h.2.2.1
      nanosecond_lt := h.2.2.2.1
      year_mem := h.2.2.2.2 }
  else none

theorem of?_self (time : Timestamp) :
    of? time.date time.hour time.minute time.second time.nanosecond = some time := by
  simp [of?, time.hour_lt, time.minute_lt, time.second_le, time.nanosecond_lt, time.year_mem]

/-- The point in time that clocks at an offset of some minutes from UTC, less than a day, show with the given fields.
Both the shown date and the date in UTC have to lie in the range of years. -/
def ofLocal? (date : Date) (hour minute second nanosecond : Nat) (offset : Int) : Option Timestamp := do
  let shown ← of? date hour minute second nanosecond
  let minutes : Int := (hour * 60 + minute : Nat) - offset
  let date :=
    if minutes < 0 then shown.date.previous
    else if 1440 ≤ minutes then shown.date.next
    else shown.date
  let minuteOfDay := (minutes % 1440).toNat
  of? date (minuteOfDay / 60) (minuteOfDay % 60) second nanosecond

end Timestamp

end ReviewChecks
