import ReviewChecks.Json

/-!
# Printing JSON

Values as JSON text without blanks. Quotes, backslashes and control characters are escaped, all other characters stand
for themselves.
-/

namespace ReviewChecks.Json

/-- The letter that stands for a character behind a backslash, if it has one. -/
def escapeLetter? : Char → Option Char
  | '"' => some '"'
  | '\\' => some '\\'
  | '\x08' => some 'b'
  | '\x0c' => some 'f'
  | '\n' => some 'n'
  | '\r' => some 'r'
  | '\t' => some 't'
  | _ => none

def printChar (c : Char) : List Char :=
  match escapeLetter? c with
  | some letter => ['\\', letter]
  | none => if c.toNat < 0x20 then '\\' :: 'u' :: Text.padded 16 4 c.toNat else [c]

/-- A string literal; one that names no text is printed as the first half of a surrogate pair. -/
def printLiteral : Literal → List Char
  | some text => '"' :: text.toList.flatMap printChar ++ ['"']
  | none => ['"', '\\', 'u', 'd', '8', '0', '0', '"']

/-- A number; one that is not a plain natural number is printed with an exponent. -/
def printNumber : Number → List Char
  | .natural n => Text.toDecimal n
  | .decimal ⟨negative, mantissa, exponent⟩ =>
    (if negative then ['-'] else []) ++ Text.toDecimal mantissa ++ 'e' :: (if exponent < 0 then ['-'] else []) ++
      Text.toDecimal exponent.natAbs

mutual

def printChars : Json → List Char
  | .null => ['n', 'u', 'l', 'l']
  | .bool true => ['t', 'r', 'u', 'e']
  | .bool false => ['f', 'a', 'l', 's', 'e']
  | .number value => printNumber value
  | .string value => printLiteral value
  | .array items => '[' :: printItems items ++ [']']
  | .object fields => '{' :: printFields fields ++ ['}']

def printItems : List Json → List Char
  | [] => []
  | [item] => printChars item
  | item :: rest => printChars item ++ ',' :: printItems rest

def printFields : List (Literal × Json) → List Char
  | [] => []
  | [(name, value)] => printLiteral name ++ ':' :: printChars value
  | (name, value) :: rest => printLiteral name ++ ':' :: printChars value ++ ',' :: printFields rest

end

def print (value : Json) : String :=
  String.ofList value.printChars

end ReviewChecks.Json
