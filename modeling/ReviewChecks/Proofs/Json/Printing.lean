import ReviewChecks.Json.Printer
import ReviewChecks.Json.Reader
import ReviewChecks.Proofs.Text.Digits

/-! # Reading what was printed

Every JSON value is read back from its own text (`Json.parse?_print`), whatever stands in its strings and names and
however deep it lies. A printed part does not say where it ends, so each part is read in front of any text that cannot
go on with it: a string literal in front of everything, a number or a value in front of a comma or a closing mark
(`Json.Ends`).
-/

namespace ReviewChecks.Json

theorem escaped?_escapeLetter? {c letter : Char} (escapes : escapeLetter? c = some letter) :
    escaped? letter = some c ∧ letter ≠ 'u' := by
  unfold escapeLetter? at escapes
  split at escapes
  case h_8 => cases escapes
  all_goals
    obtain rfl := Option.some.inj escapes
    exact ⟨rfl, by decide⟩

/-- The piece that a character is printed as. -/
def pieceOf (c : Char) : Piece :=
  if (escapeLetter? c).isNone ∧ c.toNat < 0x20 then .unit c.toNat else .plain c

/-- The four digits of a code unit. -/
theorem pieces?_unit {code : Nat} (fits : code < 0x10000) (rest : List Char) :
    pieces? ('\\' :: 'u' :: Text.padded 16 4 code ++ rest) =
      (pieces? rest).map fun (pieces, rest) => (.unit code :: pieces, rest) := by
  have width : (Text.padded 16 4 code).length = 4 := Text.length_padded (by decide) (by decide) fits
  have reads := @Text.ofDigits?_padded 16 (by decide) (by decide) 4 code
  generalize Text.padded 16 4 code = digits at width reads
  obtain ⟨a, b, c, d, rfl⟩ : ∃ a b c d, digits = [a, b, c, d] := by
    match digits, width with
    | [a, b, c, d], _ => exact ⟨a, b, c, d, rfl⟩
  simp only [List.cons_append, List.nil_append, pieces?, reads]
  cases pieces? rest <;> rfl

theorem pieces?_escape {letter c : Char} (escapes : escaped? letter = some c) (other : letter ≠ 'u')
    (rest : List Char) :
    pieces? ('\\' :: letter :: rest) = (pieces? rest).map fun (pieces, rest) => (.plain c :: pieces, rest) := by
  rw [pieces?]
  · simp only [escapes]
    cases pieces? rest <;> rfl
  · intro _ _ _ _ _ same
    exact (other same).elim

theorem pieces?_plain {c : Char} (quote : c ≠ '"') (backslash : c ≠ '\\') (printable : ¬ c.toNat < 0x20)
    (rest : List Char) :
    pieces? (c :: rest) = (pieces? rest).map fun (pieces, rest) => (.plain c :: pieces, rest) := by
  rw [pieces?]
  · rw [if_neg printable]
    cases pieces? rest <;> rfl
  · exact quote
  · intro _ _ _ _ _ same
    exact (backslash same).elim
  · intro _ _ same
    exact (backslash same).elim

theorem pieces?_printChar (c : Char) (rest : List Char) :
    pieces? (printChar c ++ rest) = (pieces? rest).map fun (pieces, rest) => (pieceOf c :: pieces, rest) := by
  unfold printChar pieceOf
  split
  next letter escapes =>
    obtain ⟨names, other⟩ := escaped?_escapeLetter? escapes
    simpa [escapes] using pieces?_escape names other rest
  next plain =>
    by_cases control : c.toNat < 0x20
    · simpa [plain, control] using pieces?_unit (by omega) rest
    · have quote : c ≠ '"' := by rintro rfl; cases plain
      have backslash : c ≠ '\\' := by rintro rfl; cases plain
      simpa [plain, control] using pieces?_plain quote backslash control rest

theorem pieces?_printed (text rest : List Char) :
    pieces? (text.flatMap printChar ++ '"' :: rest) = some (text.map pieceOf, rest) := by
  induction text with
  | nil => rfl
  | cons c text ih =>
    rw [List.flatMap_cons, List.append_assoc, pieces?_printChar, ih]
    rfl

theorem joinPieces?_pieceOf (text : List Char) : joinPieces? none (text.map pieceOf) = some text := by
  induction text with
  | nil => rfl
  | cons c text ih =>
    rw [List.map_cons, pieceOf]
    split
    next control =>
      rw [joinPieces?, if_neg (by omega), if_neg (by omega), ih]
      simp
    next => rw [joinPieces?, ih]; rfl

/-- A printed literal is read back in front of any text. -/
theorem exists_printLiteral_eq_cons (literal : Literal) :
    ∃ body, printLiteral literal = '"' :: body ∧
      ∀ rest, literal? (body ++ rest) = some (literal, rest) := by
  cases literal with
  | none => exact ⟨['\\', 'u', 'd', '8', '0', '0', '"'], rfl, fun rest => rfl⟩
  | some text =>
    refine ⟨text.toList.flatMap printChar ++ ['"'], rfl, fun rest => ?_⟩
    rw [List.append_assoc, literal?, List.cons_append, List.nil_append, pieces?_printed]
    simp [joinPieces?_pieceOf]

/-- A text that can follow a value: none, or one that starts with a comma or a closing mark. -/
def Ends (text : List Char) : Prop :=
  ∀ c ∈ text.head?, c = ',' ∨ c = ']' ∨ c = '}'

theorem ends_nil : Ends [] := by
  intro c member
  cases member

theorem ends_cons {c : Char} {rest : List Char} (mark : c = ',' ∨ c = ']' ∨ c = '}') : Ends (c :: rest) := by
  intro head member
  obtain rfl := Option.some.inj member
  exact mark

namespace Ends

variable {rest : List Char}

theorem stops (ends : Ends rest) : Text.Stops Char.isDigit rest := by
  intro c member
  rcases ends c member with rfl | rfl | rfl <;> rfl

theorem fraction?_eq (ends : Ends rest) : fraction? rest = some ([], rest) := by
  cases rest with
  | nil => rfl
  | cons c rest => rcases ends c rfl with rfl | rfl | rfl <;> rfl

theorem exponent?_eq (ends : Ends rest) : exponent? rest = some (none, rest) := by
  cases rest with
  | nil => rfl
  | cons c rest => rcases ends c rfl with rfl | rfl | rfl <;> rfl

end Ends

/-- The sign of a number, if it has one. -/
private def sign (negative : Bool) : List Char :=
  if negative then ['-'] else []

private theorem split_sign (negative : Bool) (n : Nat) (rest : List Char) :
    splitMinus (sign negative ++ (Text.toDecimal n ++ rest)) = (negative, Text.toDecimal n ++ rest) ∧
      splitSign (sign negative ++ (Text.toDecimal n ++ rest)) = (negative, Text.toDecimal n ++ rest) := by
  obtain ⟨digit, tail, written, isDigit⟩ := Text.exists_toDecimal_eq_cons n
  have unsigned : digit ≠ '-' ∧ digit ≠ '+' := by
    constructor <;> (rintro rfl; cases isDigit)
  rw [written]
  cases negative with
  | true => exact ⟨rfl, rfl⟩
  | false => simp [sign, splitMinus, splitSign, unsigned]

/-- The whole part of a number, with its sign. -/
private theorem number?_sign (negative : Bool) (n : Nat) {rest : List Char} (stops : Text.Stops Char.isDigit rest) :
    number? (sign negative ++ (Text.toDecimal n ++ rest)) = do
      let (digits, text) ← fraction? rest
      let (exponent, rest) ← exponent? text
      if negative || !digits.isEmpty || exponent.isSome then
        return (.decimal ⟨negative, Text.ofDecimal (Text.toDecimal n ++ digits),
          exponent.getD 0 - digits.length⟩, rest)
      else return (.natural (Text.ofDecimal (Text.toDecimal n)), rest) := by
  have regular : ((Text.toDecimal n).isEmpty || ((Text.toDecimal n).head? == some '0' &&
      (Text.toDecimal n).length != 1)) = false := by
    rw [Bool.or_eq_false_iff]
    refine ⟨List.isEmpty_eq_false_iff.mpr (Text.toDecimal_ne_nil n), ?_⟩
    by_cases zero : (Text.toDecimal n).head? = some '0'
    · rw [Text.toDecimal_of_head_zero zero]
      rfl
    · simp [zero]
  simp only [number?, (split_sign negative n rest).1,
    Text.spanDigits_append (fun c => Text.isDigit_of_mem_toDecimal) stops, regular]
  rfl

/-- An exponent is read back, with its sign. -/
private theorem exponent?_printed (exponent : Int) {rest : List Char} (ends : Ends rest) :
    exponent? ('e' :: (sign (exponent < 0) ++ (Text.toDecimal exponent.natAbs ++ rest))) =
      some (some exponent, rest) := by
  have some_digit : (Text.toDecimal exponent.natAbs).isEmpty = false :=
    List.isEmpty_eq_false_iff.mpr (Text.toDecimal_ne_nil _)
  have size : (if exponent < 0 then -(exponent.natAbs : Int) else exponent.natAbs) = exponent := by omega
  simp only [exponent?, true_or, ↓reduceIte, (split_sign _ exponent.natAbs rest).2,
    Text.spanDigits_append (fun c => Text.isDigit_of_mem_toDecimal) ends.stops, some_digit, Text.ofDecimal_toDecimal,
    decide_eq_true_eq, Bool.false_eq_true, size]

/-- A number is read back in front of what can follow it. -/
theorem number?_printNumber (value : Number) {rest : List Char} (ends : Ends rest) :
    number? (printNumber value ++ rest) = some (value, rest) := by
  cases value with
  | natural n =>
    have reads := number?_sign false n ends.stops
    rw [ends.fraction?_eq] at reads
    simpa [sign, printNumber, ends.exponent?_eq] using reads
  | decimal value =>
    obtain ⟨negative, mantissa, exponent⟩ := value
    have stops : Text.Stops Char.isDigit
        ('e' :: (sign (exponent < 0) ++ (Text.toDecimal exponent.natAbs ++ rest))) := Text.stops_cons rfl
    have shape : printNumber (.decimal ⟨negative, mantissa, exponent⟩) ++ rest =
        sign negative ++ (Text.toDecimal mantissa ++
          'e' :: (sign (exponent < 0) ++ (Text.toDecimal exponent.natAbs ++ rest))) := by
      simp [printNumber, sign]
    rw [shape, number?_sign negative mantissa stops]
    simp [fraction?, exponent?_printed exponent ends]

/-- The first character of a number. -/
private theorem exists_printNumber_eq_cons (value : Number) :
    ∃ c text, printNumber value = c :: text ∧ (c = '-' ∨ c.isDigit = true) := by
  have unsigned : ∀ n after, ∃ c text, Text.toDecimal n ++ after = c :: text ∧ (c = '-' ∨ c.isDigit = true) := by
    intro n after
    obtain ⟨digit, tail, written, isDigit⟩ := Text.exists_toDecimal_eq_cons n
    exact ⟨digit, tail ++ after, by rw [written]; rfl, .inr isDigit⟩
  match value with
  | .natural n => simpa [printNumber] using unsigned n []
  | .decimal ⟨true, mantissa, exponent⟩ => exact ⟨'-', _, rfl, .inl rfl⟩
  | .decimal ⟨false, mantissa, exponent⟩ =>
    obtain ⟨c, text, shape, first⟩ := unsigned mantissa
      ('e' :: (if exponent < 0 then ['-'] else []) ++ Text.toDecimal exponent.natAbs)
    exact ⟨c, text, by rw [← shape]; simp [printNumber], first⟩

/-- A number starts unlike everything else. -/
private theorem start_of_number {c : Char} (first : c = '-' ∨ c.isDigit = true) :
    isSpace c = false ∧ ∀ other ∈ ['"', '[', ']', '{', 'n', 't', 'f'], c ≠ other := by
  rcases first with rfl | isDigit
  · exact ⟨rfl, by simp⟩
  · constructor
    · simp only [isSpace, Bool.or_eq_false_iff, beq_eq_false_iff_ne]
      refine ⟨⟨⟨?_, ?_⟩, ?_⟩, ?_⟩ <;> (rintro rfl; cases isDigit)
    · rintro other member rfl
      revert isDigit
      simp only [List.mem_cons, List.not_mem_nil, or_false] at member
      rcases member with rfl | rfl | rfl | rfl | rfl | rfl | rfl <;> decide

theorem skipSpace_cons {c : Char} (space : isSpace c = false) (rest : List Char) :
    skipSpace (c :: rest) = c :: rest :=
  Text.dropWhile_of_stops (Text.stops_cons space)

/-- A value that starts like a number is read as one. -/
private theorem value?_of_number {c : Char} (first : c = '-' ∨ c.isDigit = true) (fuel : Nat) (text : List Char) :
    value? (fuel + 1) (c :: text) = (number? (c :: text)).map fun (found, rest) => (.number found, rest) := by
  obtain ⟨space, others⟩ := start_of_number first
  have noWord : word? (c :: text) = none := by simp [word?, others]
  simp [value?, skipSpace_cons space, noWord, others]

/-- A printed value starts with no blank and with no closing mark. -/
theorem exists_printChars_eq_cons (value : Json) :
    ∃ c text, value.printChars = c :: text ∧ isSpace c = false ∧ c ≠ ']' := by
  cases value with
  | null => exact ⟨'n', _, by rw [printChars], rfl, by decide⟩
  | bool value => cases value <;> exact ⟨_, _, by rw [printChars], rfl, by decide⟩
  | number value =>
    obtain ⟨c, text, shape, first⟩ := exists_printNumber_eq_cons value
    obtain ⟨space, others⟩ := start_of_number first
    exact ⟨c, text, by rw [printChars, shape], space, others _ (by decide)⟩
  | string value =>
    obtain ⟨body, shape, _⟩ := exists_printLiteral_eq_cons value
    exact ⟨'"', body, by rw [printChars, shape], rfl, by decide⟩
  | array items => exact ⟨'[', _, by rw [printChars]; rfl, rfl, by decide⟩
  | object fields => exact ⟨'{', _, by rw [printChars]; rfl, rfl, by decide⟩

private theorem printItems_cons (item next : Json) (items : List Json) :
    printItems (item :: next :: items) = item.printChars ++ ',' :: printItems (next :: items) := by
  rw [printItems]
  simp

private theorem printFields_cons (name : Literal) (value : Json) (next : Literal × Json)
    (fields : List (Literal × Json)) :
    printFields ((name, value) :: next :: fields) =
      printLiteral name ++ ':' :: (value.printChars ++ ',' :: printFields (next :: fields)) := by
  rw [printFields]
  · simp
  · simp

private theorem exists_printItems_eq_cons (item : Json) (items : List Json) :
    ∃ c text, printItems (item :: items) = c :: text ∧ isSpace c = false ∧ c ≠ ']' := by
  obtain ⟨c, text, shape, first⟩ := exists_printChars_eq_cons item
  cases items with
  | nil => exact ⟨c, text, by rw [printItems, shape], first⟩
  | cons next items => exact ⟨c, _, by rw [printItems_cons, shape]; rfl, first⟩

private theorem exists_printFields_eq_cons (field : Literal × Json) (fields : List (Literal × Json)) :
    ∃ text, printFields (field :: fields) = '"' :: text := by
  obtain ⟨name, value⟩ := field
  obtain ⟨body, shape, _⟩ := exists_printLiteral_eq_cons name
  cases fields with
  | nil => exact ⟨_, by rw [printFields, shape]; rfl⟩
  | cons next fields => exact ⟨_, by rw [printFields_cons, shape]; rfl⟩

mutual

/-- A value is read back in front of what can follow it, with fuel for each of its characters. -/
theorem value?_printChars : ∀ (value : Json) (fuel : Nat) {rest : List Char}, Ends rest →
    value.printChars.length ≤ fuel → value? fuel (value.printChars ++ rest) = some (value, rest)
  | .null, fuel + 1, rest, _, _ => rfl
  | .bool true, fuel + 1, rest, _, _ => rfl
  | .bool false, fuel + 1, rest, _, _ => rfl
  | .number value, fuel + 1, rest, ends, _ => by
    obtain ⟨c, text, shape, first⟩ := exists_printNumber_eq_cons value
    have reads := number?_printNumber value ends
    rw [printChars]
    rw [shape, List.cons_append] at reads ⊢
    rw [value?_of_number first, reads]
    rfl
  | .string value, fuel + 1, rest, _, _ => by
    obtain ⟨body, shape, reads⟩ := exists_printLiteral_eq_cons value
    rw [printChars, shape, List.cons_append, value?]
    simp [skipSpace, isSpace, reads]
  | .array [], fuel + 1, rest, _, _ => rfl
  | .array (item :: items), fuel + 1, rest, _, enough => by
    obtain ⟨c, text, shape, space, unclosed⟩ := exists_printItems_eq_cons item items
    have long : (printItems (item :: items)).length < fuel := by
      simpa [printChars, Nat.succ_le_iff] using enough
    have reads := items?_printItems item items fuel rest long
    have printed : (array (item :: items)).printChars ++ rest = '[' :: c :: (text ++ ']' :: rest) := by
      rw [printChars, shape]
      simp
    rw [shape, List.cons_append] at reads
    rw [printed, value?, skipSpace_cons rfl]
    simp [skipSpace_cons space, unclosed, reads]
  | .object [], fuel + 1, rest, _, _ => rfl
  | .object (field :: fields), fuel + 1, rest, _, enough => by
    obtain ⟨text, shape⟩ := exists_printFields_eq_cons field fields
    have long : (printFields (field :: fields)).length < fuel := by
      simpa [printChars, Nat.succ_le_iff] using enough
    have reads := fields?_printFields field fields fuel rest long
    have printed : (object (field :: fields)).printChars ++ rest = '{' :: '"' :: (text ++ '}' :: rest) := by
      rw [printChars, shape]
      simp
    rw [shape, List.cons_append] at reads
    rw [printed, value?, skipSpace_cons rfl]
    simp [skipSpace_cons, isSpace, reads]
  | value, 0, rest, _, enough => by
    obtain ⟨c, text, shape, _⟩ := exists_printChars_eq_cons value
    simp [shape] at enough

/-- The items of an array are read back up to the mark that closes it. -/
theorem items?_printItems : ∀ (item : Json) (items : List Json) (fuel : Nat) (rest : List Char),
    (printItems (item :: items)).length < fuel →
      items? fuel (printItems (item :: items) ++ ']' :: rest) = some (item :: items, rest)
  | item, [], fuel + 1, rest, enough => by
    rw [printItems] at enough ⊢
    rw [items?, value?_printChars item fuel (ends_cons (by decide)) (by omega)]
    rfl
  | item, next :: items, fuel + 1, rest, enough => by
    rw [printItems_cons] at enough ⊢
    rw [List.length_append, List.length_cons] at enough
    have first := value?_printChars item fuel
      (@ends_cons ',' (printItems (next :: items) ++ ']' :: rest) (.inl rfl)) (by omega)
    have others := items?_printItems next items fuel rest (by omega)
    rw [List.append_assoc, List.cons_append, items?, first]
    simp [skipSpace, isSpace, others]

/-- The fields of an object are read back up to the mark that closes it. -/
theorem fields?_printFields : ∀ (field : Literal × Json) (fields : List (Literal × Json)) (fuel : Nat)
    (rest : List Char), (printFields (field :: fields)).length < fuel →
      fields? fuel (printFields (field :: fields) ++ '}' :: rest) = some (field :: fields, rest)
  | (name, value), [], fuel + 1, rest, enough => by
    obtain ⟨body, shape, named⟩ := exists_printLiteral_eq_cons name
    rw [printFields, shape] at enough ⊢
    simp only [List.length_append, List.length_cons] at enough
    have found := value?_printChars value fuel (@ends_cons '}' rest (.inr (.inr rfl))) (by omega)
    simp [fields?, skipSpace, isSpace, named, found]
  | (name, value), next :: fields, fuel + 1, rest, enough => by
    obtain ⟨body, shape, named⟩ := exists_printLiteral_eq_cons name
    rw [printFields_cons, shape] at enough ⊢
    simp only [List.length_append, List.length_cons] at enough
    have found := value?_printChars value fuel
      (@ends_cons ',' (printFields (next :: fields) ++ '}' :: rest) (.inl rfl)) (by omega)
    have others := fields?_printFields next fields fuel rest (by omega)
    simp [fields?, skipSpace, isSpace, named, found, others]

end

/-- Every value is read back from its text. -/
theorem parse?_print (value : Json) : parse? value.print = some value := by
  have found := value?_printChars value (value.printChars.length + 1) ends_nil (Nat.le_succ _)
  rw [List.append_nil] at found
  have size : value.print.length = value.printChars.length := by rw [print, String.length_ofList]
  rw [parse?, size, print, String.toList_ofList, found]
  rfl

end ReviewChecks.Json
