import ReviewChecks.Decimal

/-!
# TOML values

The values of TOML 1.1, with tables as lists of fields. A table remembers how it came about, because that decides
whether later parts of a text may still add to it (`Toml.define?`, `Toml.openTable?`, `Toml.openItem?`).
-/

namespace ReviewChecks

/-- How a table came about. -/
inductive Toml.Origin where
  /-- By its own header. -/
  | header
  /-- By the header of a table inside it. -/
  | implied
  /-- By a key with dots. -/
  | dotted
  /-- By braces; nothing can be added to it. -/
  | inline
deriving DecidableEq, Repr

inductive Toml.Float where
  | decimal (value : Decimal)
  | infinite (negative : Bool)
  | notANumber
deriving DecidableEq, Repr

inductive Toml where
  | string (value : String)
  | integer (value : Int)
  | float (value : Toml.Float)
  | boolean (value : Bool)
  /-- A date, a time or both, as written. -/
  | dateTime (text : String)
  | array (items : List Toml)
  /-- Tables collected under a header in double brackets. -/
  | tables (items : List (List (String × Toml)))
  | table (origin : Toml.Origin) (fields : List (String × Toml))
deriving BEq, Repr, Inhabited

namespace Toml

abbrev Fields := List (String × Toml)

/-- Changes the value of a field, which the change sees as none when there is no such field; none when the change is
refused. -/
def modifyField? (name : String) (change : Option Toml → Option Toml) : Fields → Option Fields
  | [] => (change none).map fun value => [(name, value)]
  | (key, value) :: rest =>
    if key = name then (change (some value)).map fun changed => (key, changed) :: rest
    else (modifyField? name change rest).map ((key, value) :: ·)

/-- Changes the last item of a list; none when the list is empty or the change is refused. -/
def modifyLast? {α : Type} (change : α → Option α) : List α → Option (List α)
  | [] => none
  | [item] => (change item).map ([·])
  | item :: rest => (modifyLast? change rest).map (item :: ·)

/-- Defines a name to have a value, below tables that the earlier parts of a dotted key name. Such a table must be one
that dotted keys made; on the way to it, tables that headers imply may be passed, and the last of collected tables. A
name can be defined only once. -/
def define? (value : Toml) (name : String) : List String → Fields → Option Fields
  | [], fields =>
    modifyField? name (fun
      | none => some value
      | some _ => none) fields
  | key :: path, fields =>
    modifyField? key (fun
      | none => (define? value name path []).map (.table .dotted)
      | some (.table .dotted inner) => (define? value name path inner).map (.table .dotted)
      | some (.table .implied inner) =>
        if path.isEmpty then none else (define? value name path inner).map (.table .implied)
      | some (.tables items) =>
        if path.isEmpty then none else (modifyLast? (define? value name path) items).map .tables
      | some _ => none) fields

/-- Opens the table of a header. It must be new, or have been implied only. -/
def openTable? : List String → Fields → Option Fields
  | [], _ => none
  | [name], fields =>
    modifyField? name (fun
      | none => some (.table .header [])
      | some (.table .implied inner) => some (.table .header inner)
      | some _ => none) fields
  | key :: path, fields =>
    modifyField? key (fun
      | none => (openTable? path []).map (.table .implied)
      | some (.table .inline _) => none
      | some (.table origin inner) => (openTable? path inner).map (.table origin)
      | some (.tables items) => (modifyLast? (openTable? path) items).map .tables
      | some _ => none) fields

/-- Opens one more of the tables collected under a header in double brackets. -/
def openItem? : List String → Fields → Option Fields
  | [], _ => none
  | [name], fields =>
    modifyField? name (fun
      | none => some (.tables [[]])
      | some (.tables items) => some (.tables (items ++ [[]]))
      | some _ => none) fields
  | key :: path, fields =>
    modifyField? key (fun
      | none => (openItem? path []).map (.table .implied)
      | some (.table .inline _) => none
      | some (.table origin inner) => (openItem? path inner).map (.table origin)
      | some (.tables items) => (modifyLast? (openItem? path) items).map .tables
      | some _ => none) fields

/-- Changes the table that a header has opened. -/
def within? (change : Fields → Option Fields) : List String → Fields → Option Fields
  | [], fields => change fields
  | key :: path, fields =>
    modifyField? key (fun
      | some (.table origin inner) => (within? change path inner).map (.table origin)
      | some (.tables items) => (modifyLast? (within? change path) items).map .tables
      | _ => none) fields

/-- Whether an integer fits into 128 bits, signed or unsigned. -/
def fitsInteger (n : Int) : Bool :=
  decide (-(Int.pow 2 127) ≤ n ∧ n < Int.pow 2 128)

/-- Whether a number fits into the range of floating point; infinity only when it is written as such. -/
def Float.isReadable : Float → Bool
  | .decimal value => value.isFinite
  | .infinite _ | .notANumber => true

mutual

/-- Whether every number in a value can be represented, which is asked of values that are skipped, too. -/
def isReadable : Toml → Bool
  | .string _ | .boolean _ | .dateTime _ => true
  | .integer value => fitsInteger value
  | .float value => value.isReadable
  | .array items => areReadable items
  | .tables items => tablesReadable items
  | .table _ fields => fieldsReadable fields

def areReadable : List Toml → Bool
  | [] => true
  | value :: rest => isReadable value && areReadable rest

def fieldsReadable : List (String × Toml) → Bool
  | [] => true
  | (_, value) :: rest => isReadable value && fieldsReadable rest

def tablesReadable : List (List (String × Toml)) → Bool
  | [] => true
  | fields :: rest => fieldsReadable fields && tablesReadable rest

end

end Toml

end ReviewChecks
