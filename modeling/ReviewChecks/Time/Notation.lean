import ReviewChecks.Text.Blank
import ReviewChecks.Text.Digits
import ReviewChecks.Time.Timestamp

/-!
# Timestamps as text

The notation of RFC 3339. It is printed in one way: in UTC with a `Z`, years of four digits, and a fraction of three,
six or nine digits only when there is one. It is read liberally: blanks may stand around the parts of a date or time,
numbers may have fewer digits, years outside of four digits carry a sign, and the offset may do without its colon.
-/

namespace ReviewChecks.Timestamp

/-- The fraction of a second, in the fewest of three, six or nine digits that are exact. -/
def printFraction (nanosecond : Nat) : List Char :=
  if nanosecond = 0 then []
  else if nanosecond % 1000000 = 0 then '.' :: Text.padded 10 3 (nanosecond / 1000000)
  else if nanosecond % 1000 = 0 then '.' :: Text.padded 10 6 (nanosecond / 1000)
  else '.' :: Text.padded 10 9 nanosecond

/-- A year of four digits; with its sign when it has more digits or lies before the year zero. -/
def printYear (year : Int) : List Char :=
  if year < 0 then '-' :: Text.padded 10 4 year.natAbs
  else if 9999 < year then '+' :: Text.padded 10 4 year.natAbs
  else Text.padded 10 4 year.natAbs

def printChars (time : Timestamp) : List Char :=
  printYear time.date.year ++ '-' :: Text.padded 10 2 time.date.month ++ '-' :: Text.padded 10 2 time.date.day ++
    'T' :: Text.padded 10 2 time.hour ++ ':' :: Text.padded 10 2 time.minute ++
    ':' :: Text.padded 10 2 time.second ++ printFraction time.nanosecond ++ ['Z']

def print (time : Timestamp) : String :=
  String.ofList time.printChars

/-- A number of one digit up to `width` digits, with the blanks before it skipped. -/
def number? (width : Nat) (text : List Char) : Option (Nat × List Char) :=
  let text := Text.trimStart text
  let digits := (text.take width).takeWhile Char.isDigit
  if digits.isEmpty then none else some (Text.ofDecimal digits, text.drop digits.length)

/-- A year: up to four digits, or any number of digits behind a sign. -/
def year? (text : List Char) : Option (Int × List Char) :=
  match Text.trimStart text with
  | '-' :: text => (signed? text).map fun (year, rest) => (-(year : Int), rest)
  | '+' :: text => (signed? text).map fun (year, rest) => ((year : Int), rest)
  | text => (number? 4 text).map fun (year, rest) => ((year : Int), rest)
where
  /-- The digits of a year that has a sign. -/
  signed? (text : List Char) : Option (Nat × List Char) :=
    let (digits, rest) := Text.spanDigits text
    if digits.isEmpty then none else some (Text.ofDecimal digits, rest)

/-- The text behind a mark, which may have blanks before it. -/
def mark? (mark : Char) (text : List Char) : Option (List Char) :=
  match Text.trimStart text with
  | c :: rest => if c = mark then some rest else none
  | [] => none

/-- The nanoseconds of a fraction, zero when there is none; digits beyond the ninth are dropped. -/
def fraction? : List Char → Option (Nat × List Char)
  | '.' :: text =>
    let (digits, rest) := Text.spanDigits text
    if digits.isEmpty then none
    else
      let kept := digits.take 9
      some (Text.ofDecimal kept * Nat.pow 10 (9 - kept.length), rest)
  | text => some (0, text)

def twoDigits? : List Char → Option (Nat × List Char)
  | a :: b :: rest => if a.isDigit && b.isDigit then some (Text.ofDecimal [a, b], rest) else none
  | _ => none

/-- The offset from UTC in minutes: `Z`, the word `UTC`, or a sign, hours and minutes, which a colon or blanks may
part. -/
def offset? (text : List Char) : Option (Int × List Char) :=
  match text with
  | 'Z' :: rest | 'z' :: rest => some (0, rest)
  | u :: t :: c :: rest =>
    if u.toUpper = 'U' ∧ t.toUpper = 'T' ∧ c.toUpper = 'C' then some (0, rest) else signed? text
  | _ => signed? text
where
  /-- An offset that starts with its sign. -/
  signed? : List Char → Option (Int × List Char)
    | sign :: text => do
      let negative ← if sign = '+' then some false else if sign = '-' ∨ sign = '\u2212' then some true else none
      let (hours, text) ← twoDigits? text
      let (minutes, rest) ← twoDigits? (text.dropWhile fun c => c = ':' || Text.isBlank c)
      if minutes < 60 ∧ hours < 24 then
        let size : Int := (hours * 60 + minutes : Nat)
        some (if negative then -size else size, rest)
      else none
    | [] => none

/-- The point in time that a text names. -/
def parseChars? (text : List Char) : Option Timestamp := do
  let (year, text) ← year? text
  let text ← mark? '-' text
  let (month, text) ← number? 2 text
  let text ← mark? '-' text
  let (day, text) ← number? 2 text
  let text ←
    match text with
    | c :: rest => if c = 'T' ∨ c = 't' ∨ c = ' ' then some rest else none
    | [] => none
  let (hour, text) ← number? 2 text
  let text ← mark? ':' text
  let (minute, text) ← number? 2 text
  let text ← mark? ':' text
  let (second, text) ← number? 2 text
  let (nanosecond, text) ← fraction? text
  let (offset, rest) ← offset? (Text.trimStart text)
  let date ← Date.of? year month day
  if (Text.trimStart rest).isEmpty then ofLocal? date hour minute second nanosecond offset else none

def parse? (text : String) : Option Timestamp :=
  parseChars? text.toList

end ReviewChecks.Timestamp
