import ReviewChecks.Text.Digits

/-!
# Quoted text in TOML

Basic strings, in which a backslash escapes, and literal strings, in which nothing does; each on one line between
single marks or on several lines between triple marks. Besides reading, this module has the choice of quotes for a key
that is written.
-/

namespace ReviewChecks.Toml

/-- Whether a character can stand in a string or comment: no control character but the tab. -/
def isTextChar (c : Char) : Bool :=
  c = '\t' || (0x20 ≤ c.toNat && c.toNat != 0x7F)

/-- Whether a character can stand in a key without quotes. -/
def isBareKeyChar (c : Char) : Bool :=
  c.isAlphanum || c = '_' || c = '-'

/-- The character that a backslash and a letter stand for. -/
def escaped? : Char → Option Char
  | 'b' => some '\x08'
  | 't' => some '\t'
  | 'n' => some '\n'
  | 'f' => some '\x0c'
  | 'r' => some '\r'
  | 'e' => some '\x1b'
  | '"' => some '"'
  | '\\' => some '\\'
  | _ => none

/-- The character of a code point written in hexadecimal digits. -/
def ofCodePoint? (digits : List Char) : Option Char := do
  let code ← Text.ofDigits? 16 digits
  if code.isValidChar then some (Char.ofNat code) else none

/-- A character of a basic string, as it is or escaped, at the front of a text. -/
def basicChar? : List Char → Option (Char × List Char)
  | '\\' :: 'x' :: a :: b :: rest => (ofCodePoint? [a, b]).map (·, rest)
  | '\\' :: 'u' :: a :: b :: c :: d :: rest => (ofCodePoint? [a, b, c, d]).map (·, rest)
  | '\\' :: 'U' :: a :: b :: c :: d :: e :: f :: g :: h :: rest =>
    (ofCodePoint? [a, b, c, d, e, f, g, h]).map (·, rest)
  | '\\' :: letter :: rest => (escaped? letter).map (·, rest)
  | c :: rest => if isTextChar c then some (c, rest) else none
  | [] => none

/-- A basic string whose opening mark has been read. Each character takes fuel. -/
def basicString? : Nat → List Char → Option (List Char × List Char)
  | 0, _ => none
  | _, '"' :: rest => some ([], rest)
  | fuel + 1, text => do
    let (c, rest) ← basicChar? text
    let (chars, rest) ← basicString? fuel rest
    return (c :: chars, rest)

def literalString? : List Char → Option (List Char × List Char)
  | [] => none
  | '\'' :: rest => some ([], rest)
  | c :: rest =>
    if isTextChar c then (literalString? rest).map fun (chars, rest) => (c :: chars, rest) else none

/-- The end of a string on several lines: three marks, with up to two more before them that belong to the string. -/
def closing? (mark : Char) (text : List Char) : Option (List Char × List Char) :=
  let count := (text.takeWhile (· = mark)).length
  if count < 3 then none
  else
    let inside := min (count - 3) 2
    some (List.replicate inside mark, text.drop (inside + 3))

def lineEnd? : List Char → Option (List Char)
  | '\n' :: rest => some rest
  | '\r' :: '\n' :: rest => some rest
  | _ => none

/-- The text from its first character that is neither blank nor a line end. -/
def skipLines : List Char → List Char
  | ' ' :: rest => skipLines rest
  | '\t' :: rest => skipLines rest
  | '\n' :: rest => skipLines rest
  | '\r' :: '\n' :: rest => skipLines rest
  | text => text

/-- A basic string on several lines whose opening marks have been read. A backslash at the end of a line joins the
string with the next line that is not blank. -/
def longBasicString? : Nat → List Char → Option (List Char × List Char)
  | 0, _ => none
  | fuel + 1, text =>
    match closing? '"' text with
    | some found => some found
    | none =>
      match lineEnd? text with
      | some rest => (longBasicString? fuel rest).map fun (chars, rest) => ('\n' :: chars, rest)
      | none =>
        match text with
        | '\\' :: rest =>
          if (lineEnd? (rest.dropWhile fun c => c = ' ' || c = '\t')).isSome then
            longBasicString? fuel (skipLines rest)
          else step fuel text
        | _ => step fuel text
where
  /-- One character and the string after it. -/
  step (fuel : Nat) (text : List Char) : Option (List Char × List Char) := do
    let (c, rest) ← basicChar? text
    let (chars, rest) ← longBasicString? fuel rest
    return (c :: chars, rest)

/-- A literal string on several lines whose opening marks have been read. -/
def longLiteralString? : Nat → List Char → Option (List Char × List Char)
  | 0, _ => none
  | fuel + 1, text =>
    match closing? '\'' text with
    | some found => some found
    | none =>
      match lineEnd? text with
      | some rest => (longLiteralString? fuel rest).map fun (chars, rest) => ('\n' :: chars, rest)
      | none =>
        match text with
        | c :: rest =>
          if isTextChar c then (longLiteralString? fuel rest).map fun (chars, rest) => (c :: chars, rest)
          else none
        | [] => none

/-- A line end right behind opening marks does not belong to the string. -/
def skipFirstLineEnd (text : List Char) : List Char :=
  (lineEnd? text).getD text

def string? (text : List Char) : Option (List Char × List Char) :=
  let fuel := text.length + 1
  match text with
  | '"' :: '"' :: '"' :: rest => longBasicString? fuel (skipFirstLineEnd rest)
  | '"' :: rest => basicString? fuel rest
  | '\'' :: '\'' :: '\'' :: rest => longLiteralString? fuel (skipFirstLineEnd rest)
  | '\'' :: rest => literalString? rest
  | _ => none

/-- A part of a key at the front of a text: in quotes on one line, or bare. -/
def keyPart? (text : List Char) : Option (String × List Char) :=
  match text with
  | '"' :: rest => (basicString? (rest.length + 1) rest).map fun (chars, rest) => (String.ofList chars, rest)
  | '\'' :: rest => (literalString? rest).map fun (chars, rest) => (String.ofList chars, rest)
  | _ =>
    let bare := text.takeWhile isBareKeyChar
    if bare.isEmpty then none else some (String.ofList bare, text.dropWhile isBareKeyChar)

/-- A character as it is written in a basic string. -/
def printBasicChar (c : Char) : List Char :=
  if c = '"' then ['\\', '"']
  else if c = '\\' then ['\\', '\\']
  else if c = '\x08' then ['\\', 'b']
  else if c = '\t' then ['\\', 't']
  else if c = '\n' then ['\\', 'n']
  else if c = '\x0c' then ['\\', 'f']
  else if c = '\r' then ['\\', 'r']
  else if isTextChar c then [c]
  else '\\' :: 'u' :: (Text.padded 16 4 c.toNat).map Char.toUpper

/-- A key as it is written: bare if it can be, as a literal string if that saves escapes, else as a basic string. -/
def printKey (key : List Char) : List Char :=
  if !key.isEmpty && key.all isBareKeyChar then key
  else if key.any (fun c => c = '"' || c = '\\') && key.all (fun c => c != '\'' && isTextChar c) then
    '\'' :: key ++ ['\'']
  else '"' :: key.flatMap printBasicChar ++ ['"']

end ReviewChecks.Toml
