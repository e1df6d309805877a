import ReviewChecks.Toml.Quoted
import ReviewChecks.Toml.Scalar

/-!
# TOML documents

A document is read in two steps. Its lines are read as statements: a key with a value, or a header. The statements
then build up the root table one after another.
-/

namespace ReviewChecks.Toml

/-- The text from its first character that is no blank. -/
def skipBlank (text : List Char) : List Char :=
  text.dropWhile fun c => c = ' ' || c = '\t'

/-- The text from its first character that is neither blank, nor a line end, nor part of a comment. The mark says
whether the text starts inside a comment. -/
def skipVoid : Bool → List Char → List Char
  | _, [] => []
  | _, '\n' :: rest => skipVoid false rest
  | _, '\r' :: '\n' :: rest => skipVoid false rest
  | true, c :: rest => if isTextChar c then skipVoid true rest else c :: rest
  | false, c :: rest =>
    if c = ' ' || c = '\t' then skipVoid false rest
    else if c = '#' then skipVoid true rest
    else c :: rest

/-- The text behind the rest of a line, in which only blanks and a comment may stand. -/
def endLine? (text : List Char) : Option (List Char) :=
  let text :=
    match skipBlank text with
    | '#' :: rest => rest.dropWhile isTextChar
    | text => text
  match text with
  | [] => some []
  | text => lineEnd? text

def key? : Nat → List Char → Option (List String × List Char)
  | 0, _ => none
  | fuel + 1, text => do
    let (part, rest) ← keyPart? text
    match skipBlank rest with
    | '.' :: rest =>
      let (parts, rest) ← key? fuel (skipBlank rest)
      return (part :: parts, rest)
    | rest => return ([part], rest)

/-- How many arrays and inline tables may lie within each other, and how many parts a key may have. -/
def depthLimit : Nat := 80

/-- A key at the front of a text that does not have too many parts. -/
def limitedKey? (text : List Char) : Option (List String × List Char) := do
  let (parts, rest) ← key? (text.length + 1) text
  if parts.length ≤ depthLimit then some (parts, rest) else none

def splitKey? (parts : List String) : Option (List String × String) :=
  parts.getLast?.map (parts.dropLast, ·)

mutual

/-- A value at the front of a text. Each level of recursion reads at least one character, so fuel beyond the length of
the text is never used up; `depth` counts how many more arrays and inline tables may be opened. -/
def value? : Nat → Nat → List Char → Option (Toml × List Char)
  | 0, _, _ => none
  | fuel + 1, depth, text =>
    match text with
    | '"' :: _ | '\'' :: _ => (string? text).map fun (chars, rest) => (.string (String.ofList chars), rest)
    | '[' :: rest => if depth = 0 then none else items? fuel (depth - 1) [] (skipVoid false rest)
    | '{' :: rest => if depth = 0 then none else fields? fuel (depth - 1) [] (skipVoid false rest)
    | _ =>
      let (chars, rest) := splitScalar text
      (scalar? chars).map (·, rest)

/-- The rest of an array of which some items, the newest first, have been read. -/
def items? : Nat → Nat → List Toml → List Char → Option (Toml × List Char)
  | 0, _, _, _ => none
  | fuel + 1, depth, read, text =>
    match text with
    | ']' :: rest => some (.array read.reverse, rest)
    | _ => do
      let (item, rest) ← value? fuel depth text
      match skipVoid false rest with
      | ',' :: rest => items? fuel depth (item :: read) (skipVoid false rest)
      | ']' :: rest => return (.array (item :: read).reverse, rest)
      | _ => none

/-- The rest of an inline table of which some fields have been read. Like an array it may go over several lines, also
between a key and its value. -/
def fields? : Nat → Nat → Fields → List Char → Option (Toml × List Char)
  | 0, _, _, _ => none
  | fuel + 1, depth, read, text =>
    match text with
    | '}' :: rest => some (.table .inline read, rest)
    | _ => do
      let (parts, rest) ← limitedKey? text
      let (path, name) ← splitKey? parts
      let rest ← expect? '=' (skipVoid false rest)
      let (value, rest) ← value? fuel depth (skipVoid false rest)
      let read ← define? value name path read
      match skipVoid false rest with
      | ',' :: rest => fields? fuel depth read (skipVoid false rest)
      | '}' :: rest => return (.table .inline read, rest)
      | _ => none

end

inductive Statement where
  | pair (key : List String) (value : Toml)
  | header (key : List String)
  /-- A header in double brackets. -/
  | itemHeader (key : List String)
deriving BEq

/-- The statement at the front of a text, up to the rest of its line. -/
def statement? (text : List Char) : Option (Statement × List Char) :=
  match text with
  | '[' :: '[' :: rest => do
    let (key, rest) ← limitedKey? (skipBlank rest)
    let rest ← expect? ']' rest
    let rest ← expect? ']' rest
    return (.itemHeader key, rest)
  | '[' :: rest => do
    let (key, rest) ← limitedKey? (skipBlank rest)
    let rest ← expect? ']' rest
    return (.header key, rest)
  | _ => do
    let (key, rest) ← limitedKey? text
    let rest ← expect? '=' rest
    let (value, rest) ← value? (text.length + 1) depthLimit (skipBlank rest)
    return (.pair key value, rest)

/-- The statements of a text. Each takes fuel. -/
def statements? : Nat → List Char → Option (List Statement)
  | 0, _ => none
  | fuel + 1, text =>
    match skipVoid false text with
    | [] => some []
    | text => do
      let (statement, rest) ← statement? text
      let rest ← endLine? rest
      let statements ← statements? fuel rest
      return statement :: statements

/-- A root table under construction, with the header that the next keys belong to. -/
structure Draft where
  root : Fields := []
  current : List String := []

/-- The draft after a statement; none when the statement contradicts an earlier one. -/
def Draft.add? (draft : Draft) : Statement → Option Draft
  | .pair key value => do
    let (path, name) ← splitKey? key
    let root ← within? (define? value name path) draft.current draft.root
    return { draft with root }
  | .header key => (openTable? key draft.root).map fun root => { root, current := key }
  | .itemHeader key => (openItem? key draft.root).map fun root => { root, current := key }

def build? (statements : List Statement) : Option Fields :=
  (statements.foldlM Draft.add? {}).map (·.root)

/-- The text without a byte order mark at its front. -/
def skipByteOrderMark : List Char → List Char
  | '\ufeff' :: rest => rest
  | text => text

def parse? (text : String) : Option Fields :=
  let chars := skipByteOrderMark text.toList
  (statements? (chars.length + 1) chars).bind build?

end ReviewChecks.Toml
