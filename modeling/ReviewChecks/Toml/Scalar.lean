import ReviewChecks.Time.Date
import ReviewChecks.Toml

/-!
# TOML values without quotes

Truth words, integers, floating point numbers, dates and times, each from the characters that it is written with.
-/

namespace ReviewChecks.Toml

/-- The digits of a run in which single underscores may stand between digits. -/
def digitRun? (isDigit : Char → Bool) : List Char → Option (List Char)
  | [] => none
  | [c] => if isDigit c then some [c] else none
  | c :: '_' :: rest => if isDigit c then (digitRun? isDigit rest).map (c :: ·) else none
  | c :: rest => if isDigit c then (digitRun? isDigit rest).map (c :: ·) else none

/-- The number of a run of digits in a base, with underscores between them. -/
def basedNumber? (base : Nat) (text : List Char) : Option Nat :=
  (digitRun? (Text.isDigitOf base) text).bind (Text.ofDigits? base)

/-- A decimal number without leading zeros, with underscores between its digits. -/
def wholeDigits? (text : List Char) : Option (List Char) :=
  match text with
  | '0' :: _ :: _ => none
  | _ => digitRun? Char.isDigit text

/-- The sign in front of a number: whether it is negative, and what follows. -/
def splitSign : List Char → Bool × List Char
  | '-' :: rest => (true, rest)
  | '+' :: rest => (false, rest)
  | text => (false, text)

/-- An integer: decimal with an optional sign, or hexadecimal, octal or binary behind its mark. -/
def integer? : List Char → Option Int
  | '0' :: 'x' :: rest => (basedNumber? 16 rest).map Int.ofNat
  | '0' :: 'o' :: rest => (basedNumber? 8 rest).map Int.ofNat
  | '0' :: 'b' :: rest => (basedNumber? 2 rest).map Int.ofNat
  | text =>
    let (negative, rest) := splitSign text
    (wholeDigits? rest).map fun digits =>
      let size : Int := Text.ofDecimal digits
      if negative then -size else size

def splitAt (condition : Char → Bool) (text : List Char) : List Char × List Char :=
  (text.takeWhile (!condition ·), text.dropWhile (!condition ·))

/-- The exponent of a floating point number, behind its mark. -/
def exponent? (text : List Char) : Option Int :=
  let (negative, rest) := splitSign text
  (digitRun? Char.isDigit rest).map fun digits =>
    let size : Int := Text.ofDecimal digits
    if negative then -size else size

/-- A floating point number: digits with a fraction, an exponent or both, or one of the words for infinity and for no
number, with an optional sign. -/
def float? (text : List Char) : Option Float :=
  let (negative, rest) := splitSign text
  if rest = ['i', 'n', 'f'] then some (.infinite negative)
  else if rest = ['n', 'a', 'n'] then some .notANumber
  else do
    let (mantissa, tail) := splitAt (fun c => c = 'e' || c = 'E') rest
    let (whole, fraction) := splitAt (· = '.') mantissa
    let whole ← wholeDigits? whole
    let digits ←
      match fraction with
      | '.' :: fraction => digitRun? Char.isDigit fraction
      | _ => some []
    let exponent ←
      match tail with
      | _ :: tail => exponent? tail
      | [] => if digits.isEmpty then none else some 0
    return .decimal ⟨negative, Text.ofDecimal (whole ++ digits), exponent - digits.length⟩

/-- The number of a fixed count of digits at the front of a text. -/
def fixedDigits? (count : Nat) (text : List Char) : Option (Nat × List Char) :=
  let digits := text.take count
  if digits.length = count ∧ digits.all Char.isDigit then some (Text.ofDecimal digits, text.drop count) else none

def expect? (c : Char) : List Char → Option (List Char)
  | head :: rest => if head = c then some rest else none
  | [] => none

def date? (text : List Char) : Option (List Char) := do
  let (year, text) ← fixedDigits? 4 text
  let text ← expect? '-' text
  let (month, text) ← fixedDigits? 2 text
  let text ← expect? '-' text
  let (day, rest) ← fixedDigits? 2 text
  let _ ← Date.of? year month day
  return rest

/-- The text behind the seconds of a time of day, which may have a fraction; a minute may have a sixty-first
second. -/
def seconds? (text : List Char) : Option (List Char) := do
  let (second, rest) ← fixedDigits? 2 text
  guard (second ≤ 60)
  match rest with
  | '.' :: rest =>
    let (digits, rest) := Text.spanDigits rest
    if digits.isEmpty then none else some rest
  | rest => some rest

def time? (text : List Char) : Option (List Char) := do
  let (hour, text) ← fixedDigits? 2 text
  let text ← expect? ':' text
  let (minute, rest) ← fixedDigits? 2 text
  guard (hour < 24 ∧ minute < 60)
  match rest with
  | ':' :: rest => seconds? rest
  | rest => some rest

/-- Whether a text is an offset from UTC, or empty. -/
def isOffset : List Char → Bool
  | [] | ['Z'] | ['z'] => true
  | sign :: text =>
    (sign = '+' || sign = '-') &&
      (do
        let (hours, text) ← fixedDigits? 2 text
        let text ← expect? ':' text
        let (minutes, rest) ← fixedDigits? 2 text
        return decide (hours < 24 ∧ minutes < 60) && rest.isEmpty : Option Bool).getD false

def isDateTimeMark (c : Char) : Bool :=
  c = 'T' || c = 't' || c = ' '

def isDateTime (text : List Char) : Bool :=
  match date? text with
  | some [] => true
  | some (mark :: rest) => isDateTimeMark mark && ((time? rest).map isOffset).getD false
  | none => time? text == some []

/-- The value that characters without quotes are written for. -/
def scalar? (text : List Char) : Option Toml :=
  if text = ['t', 'r', 'u', 'e'] then some (.boolean true)
  else if text = ['f', 'a', 'l', 's', 'e'] then some (.boolean false)
  else
    match integer? text with
    | some value => some (.integer value)
    | none =>
      match float? text with
      | some value => some (.float value)
      | none => if isDateTime text then some (.dateTime (String.ofList text)) else none

def isScalarChar (c : Char) : Bool :=
  c.isAlphanum || c = '+' || c = '-' || c = '_' || c = '.' || c = ':'

/-- The characters of a value without quotes at the front of a text, and what follows. One blank belongs to the value
when it stands between a date and digits. -/
def splitScalar (text : List Char) : List Char × List Char :=
  let (first, rest) := (text.takeWhile isScalarChar, text.dropWhile isScalarChar)
  match rest with
  | ' ' :: c :: more =>
    if c.isDigit && date? first == some [] then
      (first ++ ' ' :: (c :: more).takeWhile isScalarChar, (c :: more).dropWhile isScalarChar)
    else (first, rest)
  | _ => (first, rest)

end ReviewChecks.Toml
