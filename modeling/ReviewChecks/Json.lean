import ReviewChecks.Decimal

/-!
# JSON values

A JSON text as a value. Objects keep their fields in the order and with the repetitions of the text, a number keeps
whether it was written as a plain natural number, and a string literal may name no text at all: what a reader of a
particular type makes of these is decided there.
-/

namespace ReviewChecks

inductive Json.Number where
  /-- Digits alone. -/
  | natural (n : Nat)
  /-- A number with a minus sign, a fraction or an exponent. -/
  | decimal (value : Decimal)
deriving DecidableEq, Repr

/-- The text that a string literal names; none when its escapes leave half of a surrogate pair alone. -/
abbrev Json.Literal := Option String

inductive Json where
  | null
  | bool (value : Bool)
  | number (value : Json.Number)
  | string (value : Json.Literal)
  | array (items : List Json)
  | object (fields : List (Json.Literal × Json))
deriving BEq, Repr, Inhabited

namespace Json

def text (value : String) : Json :=
  .string (some value)

def nat (n : Nat) : Json :=
  .number (.natural n)

def record (fields : List (String × Json)) : Json :=
  .object (fields.map fun field => (some field.1, field.2))

def list {α : Type} (encode : α → Json) (items : List α) : Json :=
  .array (items.map encode)

/-- The object of some entries in their order, the value of each encoded in the same way. -/
def ofEntries {α : Type} (encode : α → Json) (entries : List (String × α)) : Json :=
  .record (entries.map fun entry => (entry.1, encode entry.2))

/-- An optional value, encoded as `null` when it is absent. -/
def nullable {α : Type} (encode : α → Json) : Option α → Json
  | none => .null
  | some value => encode value

/-- The field of an optional value, left out when it is absent. -/
def optionalField {α : Type} (name : String) (encode : α → Json) (value : Option α) : List (String × Json) :=
  (value.map fun held => (name, encode held)).toList

/-- Whether a number can be kept as a binary floating point number, or as a natural number below `2 ^ 64`, which its
estimate always allows. -/
def Number.isFinite : Number → Bool
  | .natural n => Decimal.hasFiniteEstimate ⟨false, n, 0⟩
  | .decimal value => value.hasFiniteEstimate

end Json

end ReviewChecks
