import ReviewChecks.Text.Digits

/-!
# Decimal numbers

Numbers in decimal notation as they are written, without rounding, and whether such a number lies in the range of
binary floating point of 64 bits: of the number itself, and of the estimate that a reader gets who keeps only so many
digits as fit into a word and multiplies them by a power of ten.
-/

namespace ReviewChecks

/-- The number `mantissa * 10 ^ exponent`, negated if so marked. -/
structure Decimal where
  negative : Bool
  mantissa : Nat
  exponent : Int
deriving DecidableEq, Repr

namespace Decimal

/-- The least magnitude that binary floating point of 64 bits rounds to infinity. -/
def overflowBound : Nat :=
  Nat.pow 2 1024 - Nat.pow 2 970

/-- Whether binary floating point of 64 bits rounds a number to something finite. Numbers of other than 309 digits
before the point are told by their size alone. -/
def isFinite (number : Decimal) : Bool :=
  let size : Int := (Text.decimalSize number.mantissa : Int) + number.exponent
  if number.mantissa = 0 ∨ size < 309 then true
  else if 309 < size then false
  else if 0 ≤ number.exponent then decide (number.mantissa * Nat.pow 10 number.exponent.toNat < overflowBound)
  else decide (number.mantissa < overflowBound * Nat.pow 10 (-number.exponent).toNat)

/-- The nearest number of 53 binary digits, followed by zeros; a tie goes to the even one. -/
def roundBinary (n : Nat) : Nat :=
  let unit := Nat.pow 2 (n.log2 + 1 - 53)
  let down := n / unit
  let rest := n % unit
  if unit < 2 * rest ∨ unit = 2 * rest ∧ down % 2 = 1 then (down + 1) * unit else down * unit

/-- The longest run of leading digits that names a number below `2 ^ 64`, and how many digits follow it. -/
def leadingDigits (n : Nat) : Nat × Nat :=
  if n < UInt64.size then (n, 0)
  else
    let (leading, dropped) := leadingDigits (n / 10)
    (leading, dropped + 1)
decreasing_by
  have positive : 0 < UInt64.size := by decide
  omega

/-- Whether the estimate of a number is finite. The estimate is the product, rounded once more, of the leading digits
and a power of ten that is one itself up to the 308th; both are rounded before. -/
def hasFiniteEstimate (number : Decimal) : Bool :=
  let (leading, dropped) := leadingDigits number.mantissa
  let exponent := number.exponent + dropped
  if leading = 0 ∨ exponent < 0 then true
  else if 308 < exponent then false
  else decide (roundBinary leading * roundBinary (Nat.pow 10 exponent.toNat) < overflowBound)

end Decimal

end ReviewChecks
