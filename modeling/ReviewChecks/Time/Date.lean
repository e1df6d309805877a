/-!
# Calendar dates

Dates of the Gregorian calendar, extended to years before the first, and the dates next to a date.
-/

namespace ReviewChecks

def isLeapYear (year : Int) : Bool :=
  year % 4 == 0 && (year % 100 != 0 || year % 400 == 0)

/-- How many days a month has in a year; none when the number is not that of a month. -/
def daysInMonth (year : Int) (month : Nat) : Nat :=
  match month with
  | 1 | 3 | 5 | 7 | 8 | 10 | 12 => 31
  | 4 | 6 | 9 | 11 => 30
  | 2 => if isLeapYear year then 29 else 28
  | _ => 0

structure Date where
  year : Int
  month : Nat
  day : Nat
  one_le_day : 1 ≤ day
  day_le : day ≤ daysInMonth year month
deriving DecidableEq

namespace Date

def of? (year : Int) (month day : Nat) : Option Date :=
  if valid : 1 ≤ day ∧ day ≤ daysInMonth year month then some ⟨year, month, day, valid.1, valid.2⟩ else none

theorem of?_self (date : Date) : of? date.year date.month date.day = some date := by
  simp [of?, date.one_le_day, date.day_le]

/-- The last day of December is a date of every year. -/
theorem day_le_december (year : Int) : 31 ≤ daysInMonth year 12 :=
  Nat.le_refl 31

def next (date : Date) : Date :=
  match of? date.year date.month (date.day + 1) with
  | some following => following
  | none =>
    match of? date.year (date.month + 1) 1 with
    | some following => following
    | none => ⟨date.year + 1, 1, 1, Nat.le_refl 1, by simp [daysInMonth]⟩

def previous (date : Date) : Date :=
  match of? date.year date.month (date.day - 1) with
  | some preceding => preceding
  | none =>
    match of? date.year (date.month - 1) (daysInMonth date.year (date.month - 1)) with
    | some preceding => preceding
    | none => ⟨date.year - 1, 12, 31, by decide, day_le_december _⟩

end Date

end ReviewChecks
