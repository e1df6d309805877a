/-!
# Digits

Reading and writing numbers as lists of digit characters: a run of decimal digits cut off the front of a text, digits
of other bases, and numbers padded with zeros to a fixed width.
-/

namespace ReviewChecks.Text

/-- The longest run of decimal digits at the front of a text, and what follows it. -/
def spanDigits (text : List Char) : List Char × List Char :=
  (text.takeWhile Char.isDigit, text.dropWhile Char.isDigit)

/-- The number that a run of decimal digits names; the empty run names zero. -/
def ofDecimal (digits : List Char) : Nat :=
  Nat.ofDigitChars 10 digits 0

/-- The decimal digits of a number, without leading zeros. -/
def toDecimal (n : Nat) : List Char :=
  Nat.toDigits 10 n

def decimalSize (n : Nat) : Nat :=
  (toDecimal n).length

/-- The value of a digit in bases up to sixteen; letters count in either case. -/
def digitValue? (c : Char) : Option Nat :=
  if '0' ≤ c ∧ c ≤ '9' then some (c.toNat - 48)
  else if 'a' ≤ c ∧ c ≤ 'f' then some (c.toNat - 87)
  else if 'A' ≤ c ∧ c ≤ 'F' then some (c.toNat - 55)
  else none

/-- Whether a character is a digit of the given base. -/
def isDigitOf (base : Nat) (c : Char) : Bool :=
  match digitValue? c with
  | some value => decide (value < base)
  | none => false

/-- The number that digits of the given base name; anything that is no digit of the base makes it none. -/
def ofDigits? (base : Nat) (digits : List Char) : Option Nat :=
  digits.foldlM (fun n c =>
    match digitValue? c with
    | some value => if value < base then some (n * base + value) else none
    | none => none) 0

/-- The digits of a number in the given base, filled with zeros on the left up to a width. -/
def padded (base width n : Nat) : List Char :=
  let digits := Nat.toDigits base n
  List.replicate (width - digits.length) '0' ++ digits

def ofNat (n : Nat) : String :=
  String.ofList (toDecimal n)

end ReviewChecks.Text
