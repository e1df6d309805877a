import ReviewChecks.Json

/-!
# Records in JSON

How the fields of a record are read from a JSON value. A record is written as an object, where fields that the record
does not know are skipped and a known field may stand only once, or as an array of its fields in their order of
declaration, where trailing fields may be left off. Whether a field may be absent is decided field by field.
-/

namespace ReviewChecks.Json

/-- What a JSON value has at the place of one field of a record. -/
inductive Slot where
  /-- The field with its value. -/
  | given (value : Json)
  /-- No field of that name in an object. -/
  | missing
  /-- An array that ends before the field. -/
  | cutOff
deriving BEq, Repr

structure Record where
  slot : String → Slot

def fieldValue? (name : String) (fields : List (Literal × Json)) : Option Json :=
  fields.lookup (some name)

def fieldCount (name : String) (fields : List (Literal × Json)) : Nat :=
  fields.countP fun field => field.1 == some name

/-- The record with the given field names that the fields of an object make: every name is a text, and none of the
record's own names stands twice. -/
def Record.ofFields? (names : List String) (fields : List (Literal × Json)) : Option Record :=
  if fields.all (fun field => field.1.isSome) && names.all (fun name => decide (fieldCount name fields ≤ 1)) then
    some ⟨fun name =>
      match fieldValue? name fields with
      | some value => .given value
      | none => .missing⟩
  else none

/-- The record with the given field names that a list of values makes: each value belongs to the name at its place,
and there are no more values than names. -/
def Record.ofItems? (names : List String) (items : List Json) : Option Record :=
  if items.length ≤ names.length then
    some ⟨fun name =>
      match (names.zip items).lookup name with
      | some value => .given value
      | none => .cutOff⟩
  else none

/-- The record with the given field names, from an object or an array. -/
def Record.ofJson? (names : List String) : Json → Option Record
  | .object fields => Record.ofFields? names fields
  | .array items => Record.ofItems? names items
  | _ => none

namespace Record

variable {α : Type}

def required (record : Record) (name : String) (decode : Json → Option α) : Option α :=
  match record.slot name with
  | .given value => decode value
  | .missing | .cutOff => none

/-- A field that takes a default value when it is not there. -/
def withDefault (record : Record) (name : String) (decode : Json → Option α) (default : α) : Option α :=
  match record.slot name with
  | .given value => decode value
  | .missing | .cutOff => some default

/-- A field that may be `null` or not there, which both mean that its value is absent. -/
def optional (record : Record) (name : String) (decode : Json → Option α) : Option (Option α) :=
  match record.slot name with
  | .given .null => some none
  | .given value => (decode value).map some
  | .missing | .cutOff => some none

/-- A field that may be `null` or missing in an object, but that an array has to reach. -/
def reached (record : Record) (name : String) (decode : Json → Option α) : Option (Option α) :=
  match record.slot name with
  | .given .null => some none
  | .given value => (decode value).map some
  | .missing => some none
  | .cutOff => none

end Record

def text? : Json → Option String
  | .string value => value
  | _ => none

def bool? : Json → Option Bool
  | .bool value => some value
  | _ => none

/-- A natural number below `2 ^ 32`, written as digits alone. -/
def word32? : Json → Option UInt32
  | .number (.natural n) => if small : n < UInt32.size then some (UInt32.ofNatLT n small) else none
  | _ => none

/-- A natural number below `2 ^ 64`, written as digits alone. -/
def word64? : Json → Option UInt64
  | .number (.natural n) => if small : n < UInt64.size then some (UInt64.ofNatLT n small) else none
  | _ => none

/-- The list of an array's items, each decoded in the same way. -/
def items {α : Type} (decode : Json → Option α) : Json → Option (List α)
  | .array values => values.mapM decode
  | _ => none

/-- The name of a case without a payload: a string, or an object whose only field has that name and the value
`null`. -/
def caseName? : Json → Option String
  | .string value => value
  | .object [(name, .null)] => name
  | _ => none

/-- The name of a case in a value that was kept unread, where an empty payload counts like `null`. -/
def keptCaseName? : Json → Option String
  | .object [(name, .object [])] => name
  | value => caseName? value

mutual

/-- Whether a value can be kept unread and decoded later: its strings and names are texts, its numbers are finite, and
arrays and objects lie at most `limit` deep. -/
def isRetainable (limit : Nat) : Json → Bool
  | .null | .bool _ => true
  | .number value => value.isFinite
  | .string value => value.isSome
  | .array values =>
    match limit with
    | 0 => false
    | limit + 1 => areRetainable limit values
  | .object fields =>
    match limit with
    | 0 => false
    | limit + 1 => fieldsRetainable limit fields

def areRetainable (limit : Nat) : List Json → Bool
  | [] => true
  | value :: rest => isRetainable limit value && areRetainable limit rest

def fieldsRetainable (limit : Nat) : List (Literal × Json) → Bool
  | [] => true
  | (name, value) :: rest => name.isSome && isRetainable limit value && fieldsRetainable limit rest

end

/-- A map from names to values, from an object; of fields with equal names the last one counts, though all have to
decode. -/
def entries? {α : Type} (decode : Json → Option α) : Json → Option (List (String × α))
  | .object fields => fields.mapM fun field => do
    let name ← field.1
    let value ← decode field.2
    return (name, value)
  | _ => none

end ReviewChecks.Json
