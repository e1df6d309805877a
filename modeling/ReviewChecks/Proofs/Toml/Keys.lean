import Mathlib.Tactic.SplitIfs
import ReviewChecks.Proofs.Text.Digits
import ReviewChecks.Toml.Document

/-! # Reading keys that were written

A key is written in one of three forms: bare, as a literal string, or as a basic string with escapes. Whatever
characters it has, it is read back from the form that was chosen for it (`Toml.keyPart?_printKey`): in front of any
text when it is quoted, and in front of a text that does not go on with it when it is bare. Keys of one and of two
parts are read with the blanks behind them.
-/

namespace ReviewChecks.Toml

/-- A character of a basic string is written behind a backslash by its letter, as it is, or by its code point. -/
theorem printBasicChar_cases (c : Char) :
    (∃ letter, printBasicChar c = ['\\', letter] ∧ ∀ rest, basicChar? ('\\' :: letter :: rest) = some (c, rest)) ∨
    (c ≠ '"' ∧ c ≠ '\\' ∧ isTextChar c = true ∧ printBasicChar c = [c]) ∨
    (isTextChar c = false ∧ printBasicChar c = '\\' :: 'u' :: (Text.padded 16 4 c.toNat).map Char.toUpper) := by
  by_cases quote : c = '"'
  · subst quote
    exact .inl ⟨'"', rfl, fun _ => rfl⟩
  by_cases backslash : c = '\\'
  · subst backslash
    exact .inl ⟨'\\', rfl, fun _ => rfl⟩
  by_cases backspace : c = '\x08'
  · subst backspace
    exact .inl ⟨'b', rfl, fun _ => rfl⟩
  by_cases tab : c = '\t'
  · subst tab
    exact .inl ⟨'t', rfl, fun _ => rfl⟩
  by_cases newline : c = '\n'
  · subst newline
    exact .inl ⟨'n', rfl, fun _ => rfl⟩
  by_cases feed : c = '\x0c'
  · subst feed
    exact .inl ⟨'f', rfl, fun _ => rfl⟩
  by_cases carriage : c = '\r'
  · subst carriage
    exact .inl ⟨'r', rfl, fun _ => rfl⟩
  rw [printBasicChar, if_neg quote, if_neg backslash, if_neg backspace, if_neg tab, if_neg newline, if_neg feed,
    if_neg carriage]
  cases printable : isTextChar c with
  | true => exact .inr (.inl ⟨quote, backslash, rfl, rfl⟩)
  | false => exact .inr (.inr ⟨rfl, rfl⟩)

theorem ofCodePoint?_padded (c : Char) :
    ofCodePoint? ((Text.padded 16 4 c.toNat).map Char.toUpper) = some c := by
  have valid : c.toNat.isValidChar := c.valid
  simp [ofCodePoint?, Text.ofDigits?_map_toUpper, Text.ofDigits?_padded, valid]

theorem basicChar?_unicode {digits : List Char} (width : digits.length = 4) (rest : List Char) :
    basicChar? ('\\' :: 'u' :: digits ++ rest) = (ofCodePoint? digits).map (·, rest) := by
  obtain ⟨a, b, c, d, rfl⟩ : ∃ a b c d, digits = [a, b, c, d] := by
    match digits, width with
    | [a, b, c, d], _ => exact ⟨a, b, c, d, rfl⟩
  rfl

theorem basicChar?_plain {c : Char} (other : c ≠ '\\') (printable : isTextChar c = true) (rest : List Char) :
    basicChar? (c :: rest) = some (c, rest) := by
  rw [basicChar?, if_pos printable]
  all_goals
    intros
    exact other ‹c = '\\'›

/-- A character is read back as it was written. -/
theorem basicChar?_printBasicChar (c : Char) (rest : List Char) :
    basicChar? (printBasicChar c ++ rest) = some (c, rest) := by
  rcases printBasicChar_cases c with ⟨letter, written, reads⟩ | ⟨_, other, printable, written⟩ | ⟨control, written⟩
  · rw [written]
    exact reads rest
  · rw [written]
    exact basicChar?_plain other printable rest
  · have small : c.toNat < 16 ^ 4 := by
      simp only [isTextChar, Bool.or_eq_false_iff, Bool.and_eq_false_iff, decide_eq_false_iff_not, bne_eq_false_iff_eq]
        at control
      omega
    rw [written, basicChar?_unicode, ofCodePoint?_padded, Option.map_some]
    rw [List.length_map, Text.length_padded (by decide) (by decide) small]

/-- No character is written with a quote in front, which would end the string. -/
theorem exists_printBasicChar_eq_cons (c : Char) : ∃ head tail, printBasicChar c = head :: tail ∧ head ≠ '"' := by
  rcases printBasicChar_cases c with ⟨letter, written, _⟩ | ⟨other, _, _, written⟩ | ⟨_, written⟩
  · exact ⟨_, _, written, by decide⟩
  · exact ⟨_, _, written, other⟩
  · exact ⟨_, _, written, by decide⟩

theorem basicString?_printed (key rest : List Char) {fuel : Nat}
    (enough : (key.flatMap printBasicChar).length < fuel) :
    basicString? fuel (key.flatMap printBasicChar ++ '"' :: rest) = some (key, rest) := by
  induction key generalizing fuel with
  | nil =>
    obtain ⟨fuel, rfl⟩ := Nat.exists_eq_succ_of_ne_zero (Nat.ne_of_gt enough)
    rfl
  | cons c key ih =>
    obtain ⟨fuel, rfl⟩ := Nat.exists_eq_succ_of_ne_zero (Nat.ne_of_gt (Nat.zero_lt_of_lt enough))
    obtain ⟨head, tail, written, other⟩ := exists_printBasicChar_eq_cons c
    have first := basicChar?_printBasicChar c (key.flatMap printBasicChar ++ '"' :: rest)
    rw [List.flatMap_cons] at enough ⊢
    rw [List.append_assoc]
    rw [written, List.cons_append] at first enough ⊢
    have less : (key.flatMap printBasicChar).length < fuel := by
      simp only [List.length_cons, List.length_append] at enough
      omega
    rw [basicString?]
    · simp [first, ih less]
    · intro _ same
      exact other (List.cons.inj same).1

theorem literalString?_printed {key : List Char} (plain : ∀ c ∈ key, c ≠ '\'' ∧ isTextChar c = true)
    (rest : List Char) : literalString? (key ++ '\'' :: rest) = some (key, rest) := by
  induction key with
  | nil => rfl
  | cons c key ih =>
    obtain ⟨⟨other, printable⟩, plain⟩ := List.forall_mem_cons.mp plain
    rw [List.cons_append, literalString?, if_pos printable, ih plain]
    · rfl
    · exact other

/-- Whether a key can be written without quotes. -/
def IsBareKey (key : List Char) : Prop :=
  (!key.isEmpty && key.all isBareKeyChar) = true

instance (key : List Char) : Decidable (IsBareKey key) :=
  inferInstanceAs (Decidable (_ = true))

namespace IsBareKey

variable {key : List Char}

theorem mem (bare : IsBareKey key) : ∀ c ∈ key, isBareKeyChar c = true := by
  simp only [IsBareKey, Bool.and_eq_true, List.all_eq_true] at bare
  exact bare.2

theorem exists_eq_cons (bare : IsBareKey key) : ∃ c rest, key = c :: rest ∧ isBareKeyChar c = true := by
  cases key with
  | nil => cases bare
  | cons c rest => exact ⟨c, rest, rfl, bare.mem c List.mem_cons_self⟩

/-- A bare key does not start with a mark. -/
theorem append_ne_cons (bare : IsBareKey key) {mark : Char} (other : isBareKeyChar mark = false)
    (tail more : List Char) : key ++ tail ≠ mark :: more := by
  obtain ⟨c, rest, rfl, letter⟩ := bare.exists_eq_cons
  intro same
  rw [(List.cons.inj same).1, other] at letter
  cases letter

theorem keyPart?_eq (bare : IsBareKey key) {rest : List Char} (stops : Text.Stops isBareKeyChar rest) :
    keyPart? (key ++ rest) = some (String.ofList key, rest) := by
  unfold keyPart?
  split
  next same => exact (bare.append_ne_cons (by decide) _ _ same).elim
  next same => exact (bare.append_ne_cons (by decide) _ _ same).elim
  next =>
    rw [Text.takeWhile_append bare.mem stops, Text.dropWhile_append bare.mem stops]
    obtain ⟨c, key, rfl, _⟩ := bare.exists_eq_cons
    rfl

theorem skipBlank_eq (bare : IsBareKey key) (rest : List Char) : skipBlank (key ++ rest) = key ++ rest := by
  obtain ⟨c, key, rfl, letter⟩ := bare.exists_eq_cons
  refine Text.dropWhile_of_stops (Text.stops_cons ?_)
  simp only [Bool.or_eq_false_iff, decide_eq_false_iff_not]
  constructor <;> rintro rfl <;> cases letter

end IsBareKey

/-- A part of a key is read back as it was written. -/
theorem keyPart?_printKey (key : List Char) {rest : List Char} (stops : Text.Stops isBareKeyChar rest) :
    keyPart? (printKey key ++ rest) = some (String.ofList key, rest) := by
  unfold printKey
  split_ifs with bare literal
  case pos => exact IsBareKey.keyPart?_eq bare stops
  case pos =>
    simp only [Bool.and_eq_true, List.all_eq_true, bne_iff_ne] at literal
    rw [List.cons_append, List.cons_append, List.append_assoc, keyPart?, List.singleton_append,
      literalString?_printed literal.2]
    rfl
  case neg =>
    rw [List.cons_append, List.cons_append, List.append_assoc, keyPart?, List.singleton_append, basicString?_printed]
    · rfl
    · simp only [List.length_append, List.length_cons]
      omega

theorem skipBlank_printKey (key rest : List Char) : skipBlank (printKey key ++ rest) = printKey key ++ rest := by
  unfold printKey
  split_ifs with bare
  case pos => exact IsBareKey.skipBlank_eq bare rest
  all_goals rfl

variable {text rest tail : List Char} {part : String} {parts : List String}

theorem key?_last (reads : keyPart? text = some (part, rest)) (ends : Text.Stops (· = '.') (skipBlank rest))
    (fuel : Nat) : key? (fuel + 1) text = some ([part], skipBlank rest) := by
  rw [key?, reads]
  simp only [Option.bind_eq_bind, Option.bind_some]
  split
  next dotted =>
    rw [dotted] at ends
    cases ends '.' rfl
  next => rfl

theorem key?_dot {fuel : Nat} (reads : keyPart? text = some (part, '.' :: rest))
    (others : key? fuel (skipBlank rest) = some (parts, tail)) : key? (fuel + 1) text = some (part :: parts, tail) := by
  have dot : skipBlank ('.' :: rest) = '.' :: rest := rfl
  rw [key?, reads]
  simp only [Option.bind_eq_bind, Option.bind_some, dot, others]
  rfl

theorem limitedKey?_bare {name : List Char} (bare : IsBareKey name) (stops : Text.Stops isBareKeyChar rest)
    (ends : Text.Stops (· = '.') (skipBlank rest)) :
    limitedKey? (name ++ rest) = some ([String.ofList name], skipBlank rest) := by
  rw [limitedKey?, key?_last (bare.keyPart?_eq stops) ends]
  rfl

/-- A bare name, a dot and any key are read as two parts. -/
theorem limitedKey?_dotted {name : List Char} (bare : IsBareKey name) (key : List Char)
    (stops : Text.Stops isBareKeyChar rest) (ends : Text.Stops (· = '.') (skipBlank rest)) :
    limitedKey? (name ++ '.' :: (printKey key ++ rest)) =
      some ([String.ofList name, String.ofList key], skipBlank rest) := by
  have dot : Text.Stops isBareKeyChar ('.' :: (printKey key ++ rest)) := Text.stops_cons (by decide)
  have first := bare.keyPart?_eq dot
  -- The second part takes one more unit of fuel, which the dot pays for.
  obtain ⟨fuel, enough⟩ : ∃ fuel, (name ++ '.' :: (printKey key ++ rest)).length = fuel + 1 :=
    Nat.exists_eq_succ_of_ne_zero (by simp)
  have second := key?_last (keyPart?_printKey key stops) ends fuel
  rw [← skipBlank_printKey] at second
  rw [limitedKey?, enough, key?_dot first second]
  rfl

end ReviewChecks.Toml
