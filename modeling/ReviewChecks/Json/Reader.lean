import ReviewChecks.Json

/-!
# Reading JSON

A strict reader of JSON texts: no comments, no trailing commas, no leading zeros, no control characters in strings,
blanks around the value and between its parts and nothing else behind it. Each reading function takes a text and gives
what it read with the rest of the text. Nesting is unlimited here; `Json.isRetainable` says which values respect the
limits under which a value can be kept unread.
-/

namespace ReviewChecks.Json

/-- The four blanks of JSON. -/
def isSpace (c : Char) : Bool :=
  c == ' ' || c == '\t' || c == '\n' || c == '\r'

/-- The text from its first character that is no blank. -/
def skipSpace (text : List Char) : List Char :=
  text.dropWhile isSpace

/-- A piece of a string literal: a character, or a code unit written as four hexadecimal digits. -/
inductive Piece where
  | plain (c : Char)
  | unit (code : Nat)
deriving DecidableEq, Repr

def escaped? : Char → Option Char
  | '"' => some '"'
  | '\\' => some '\\'
  | '/' => some '/'
  | 'b' => some '\x08'
  | 'f' => some '\x0c'
  | 'n' => some '\n'
  | 'r' => some '\r'
  | 't' => some '\t'
  | _ => none

/-- The pieces of a string literal whose opening quote has been read, up to its closing quote. -/
def pieces? : List Char → Option (List Piece × List Char)
  | [] => none
  | '"' :: rest => some ([], rest)
  | '\\' :: 'u' :: a :: b :: c :: d :: rest => do
    let code ← Text.ofDigits? 16 [a, b, c, d]
    let (pieces, rest) ← pieces? rest
    return (.unit code :: pieces, rest)
  | '\\' :: e :: rest => do
    let c ← escaped? e
    let (pieces, rest) ← pieces? rest
    return (.plain c :: pieces, rest)
  | c :: rest =>
    if c.toNat < 0x20 then none
    else do
      let (pieces, rest) ← pieces? rest
      return (.plain c :: pieces, rest)

/-- The characters that pieces name, given the first half of a surrogate pair that may be waiting for its second. -/
def joinPieces? : Option Nat → List Piece → Option (List Char)
  | none, [] => some []
  | none, .plain c :: rest => (joinPieces? none rest).map (c :: ·)
  | none, .unit code :: rest =>
    if 0xD800 ≤ code ∧ code < 0xDC00 then joinPieces? (some code) rest
    else if 0xDC00 ≤ code ∧ code < 0xE000 then none
    else (joinPieces? none rest).map (Char.ofNat code :: ·)
  | some high, .unit low :: rest =>
    if 0xDC00 ≤ low ∧ low < 0xE000 then
      (joinPieces? none rest).map (Char.ofNat (0x10000 + (high - 0xD800) * 0x400 + (low - 0xDC00)) :: ·)
    else none
  | some _, _ => none

/-- A string literal whose opening quote has been read. -/
def literal? (text : List Char) : Option (Literal × List Char) := do
  let (pieces, rest) ← pieces? text
  return ((joinPieces? none pieces).map String.ofList, rest)

/-- The digits behind a decimal point, at least one; no digits when there is no point. -/
def fraction? : List Char → Option (List Char × List Char)
  | '.' :: text =>
    let (digits, rest) := Text.spanDigits text
    if digits.isEmpty then none else some (digits, rest)
  | text => some ([], text)

/-- Whether a text starts with a minus sign, and what follows it. -/
def splitMinus : List Char → Bool × List Char
  | '-' :: text => (true, text)
  | text => (false, text)

/-- Whether a text starts with a minus sign, and what follows it or a plus sign. -/
def splitSign : List Char → Bool × List Char
  | '+' :: text => (false, text)
  | text => splitMinus text

/-- The exponent behind an `e`, none when there is no `e`. -/
def exponent? : List Char → Option (Option Int × List Char)
  | c :: text =>
    if c = 'e' ∨ c = 'E' then
      let (negative, text) := splitSign text
      let (digits, rest) := Text.spanDigits text
      if digits.isEmpty then none
      else
        let size : Int := Text.ofDecimal digits
        some (some (if negative then -size else size), rest)
    else some (none, c :: text)
  | [] => some (none, [])

def number? (text : List Char) : Option (Number × List Char) := do
  let (negative, text) := splitMinus text
  let (whole, text) := Text.spanDigits text
  if whole.isEmpty || (whole.head? == some '0' && whole.length != 1) then none
  else do
    let (digits, text) ← fraction? text
    let (exponent, rest) ← exponent? text
    if negative || !digits.isEmpty || exponent.isSome then
      return (.decimal ⟨negative, Text.ofDecimal (whole ++ digits), exponent.getD 0 - digits.length⟩, rest)
    else
      return (.natural (Text.ofDecimal whole), rest)

/-- A word of JSON at the front of a text, with the value that it stands for. -/
def word? (text : List Char) : Option (Json × List Char) :=
  match text with
  | 'n' :: 'u' :: 'l' :: 'l' :: rest => some (.null, rest)
  | 't' :: 'r' :: 'u' :: 'e' :: rest => some (.bool true, rest)
  | 'f' :: 'a' :: 'l' :: 's' :: 'e' :: rest => some (.bool false, rest)
  | _ => none

mutual

/-- A value at the front of a text, which may start with blanks. Each level of recursion reads at least one character,
so fuel beyond the length of the text is never used up. -/
def value? : Nat → List Char → Option (Json × List Char)
  | 0, _ => none
  | fuel + 1, text =>
    match skipSpace text with
    | '"' :: rest => (literal? rest).map fun (literal, rest) => (.string literal, rest)
    | '[' :: rest =>
      match skipSpace rest with
      | ']' :: rest => some (.array [], rest)
      | rest => (items? fuel rest).map fun (items, rest) => (.array items, rest)
    | '{' :: rest =>
      match skipSpace rest with
      | '}' :: rest => some (.object [], rest)
      | rest => (fields? fuel rest).map fun (fields, rest) => (.object fields, rest)
    | text =>
      match word? text with
      | some found => some found
      | none => (number? text).map fun (found, rest) => (.number found, rest)

/-- The items of an array that has at least one, up to its closing bracket. -/
def items? : Nat → List Char → Option (List Json × List Char)
  | 0, _ => none
  | fuel + 1, text => do
    let (item, rest) ← value? fuel text
    match skipSpace rest with
    | ',' :: rest =>
      let (items, rest) ← items? fuel rest
      return (item :: items, rest)
    | ']' :: rest => return ([item], rest)
    | _ => none

/-- The fields of an object that has at least one, up to its closing brace. -/
def fields? : Nat → List Char → Option (List (Literal × Json) × List Char)
  | 0, _ => none
  | fuel + 1, text =>
    match skipSpace text with
    | '"' :: rest => do
      let (name, rest) ← literal? rest
      match skipSpace rest with
      | ':' :: rest =>
        let (value, rest) ← value? fuel rest
        match skipSpace rest with
        | ',' :: rest =>
          let (fields, rest) ← fields? fuel rest
          return ((name, value) :: fields, rest)
        | '}' :: rest => return ([(name, value)], rest)
        | _ => none
      | _ => none
    | _ => none

end

def parse? (text : String) : Option Json := do
  let (value, rest) ← value? (text.length + 1) text.toList
  if (skipSpace rest).isEmpty then some value else none

end ReviewChecks.Json
