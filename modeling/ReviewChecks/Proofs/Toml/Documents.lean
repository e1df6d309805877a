import ReviewChecks.Proofs.Toml.Keys

/-! # Reading documents that were written

A document that is written line by line, each line a name with a number or a header, is read as its statements
(`Toml.statements?_of_document`). Statements build up the root table field by field: a name that is new is put behind
the fields that are there (`Toml.modifyField?_absent`), and a field that is there is changed in its place
(`Toml.modifyField?_present`).
-/

namespace ReviewChecks.Toml

theorem not_mem_toDecimal {n : Nat} {c : Char} (other : c.isDigit = false) : c ∉ Text.toDecimal n := by
  intro member
  rw [Text.isDigit_of_mem_toDecimal member] at other
  cases other

theorem isBareKey_toDecimal (n : Nat) : IsBareKey (Text.toDecimal n) := by
  simp only [IsBareKey, Bool.and_eq_true, Bool.not_eq_true', List.isEmpty_eq_false_iff, List.all_eq_true]
  refine ⟨Text.toDecimal_ne_nil n, fun c member => ?_⟩
  rw [isBareKeyChar, Char.isAlphanum, Text.isDigit_of_mem_toDecimal member, Bool.or_true]
  rfl

/-- A run of digits without underscores. -/
theorem digitRun?_digits {digits : List Char} (nonempty : digits ≠ []) (all : ∀ c ∈ digits, c.isDigit = true) :
    digitRun? Char.isDigit digits = some digits := by
  induction digits with
  | nil => exact (nonempty rfl).elim
  | cons c digits ih =>
    obtain ⟨own, others⟩ := List.forall_mem_cons.mp all
    cases digits with
    | nil => rw [digitRun?, if_pos own]
    | cons next rest =>
      rw [digitRun?, if_pos own, ih (List.cons_ne_nil next rest) others]
      · rfl
      · exact List.cons_ne_nil next rest
      · rintro _ same
        obtain rfl := (List.cons.inj same).1
        exact absurd (others _ List.mem_cons_self) (by decide)

theorem wholeDigits?_toDecimal (n : Nat) : wholeDigits? (Text.toDecimal n) = some (Text.toDecimal n) := by
  unfold wholeDigits?
  split
  next same => exact (Text.toDecimal_ne_zero_cons n _ _ same).elim
  next => exact digitRun?_digits (Text.toDecimal_ne_nil n) fun _ => Text.isDigit_of_mem_toDecimal

theorem integer?_toDecimal (n : Nat) : integer? (Text.toDecimal n) = some (n : Int) := by
  have sign : splitSign (Text.toDecimal n) = (false, Text.toDecimal n) := by
    unfold splitSign
    split
    next same => exact (not_mem_toDecimal (by decide) (same ▸ List.mem_cons_self)).elim
    next same => exact (not_mem_toDecimal (by decide) (same ▸ List.mem_cons_self)).elim
    next => rfl
  -- A zero in front would be the mark of another base, but no number is written with one.
  unfold integer?
  split
  next same => exact (Text.toDecimal_ne_zero_cons n _ _ same).elim
  next same => exact (Text.toDecimal_ne_zero_cons n _ _ same).elim
  next same => exact (Text.toDecimal_ne_zero_cons n _ _ same).elim
  next =>
    rw [sign]
    simp [wholeDigits?_toDecimal]

theorem scalar?_toDecimal (n : Nat) : scalar? (Text.toDecimal n) = some (.integer n) := by
  have notTrue : Text.toDecimal n ≠ ['t', 'r', 'u', 'e'] := fun same =>
    not_mem_toDecimal (by decide) (same ▸ List.mem_cons_self)
  have notFalse : Text.toDecimal n ≠ ['f', 'a', 'l', 's', 'e'] := fun same =>
    not_mem_toDecimal (by decide) (same ▸ List.mem_cons_self)
  rw [scalar?, if_neg notTrue, if_neg notFalse, integer?_toDecimal]

theorem splitScalar_toDecimal (n : Nat) (rest : List Char) :
    splitScalar (Text.toDecimal n ++ '\n' :: rest) = (Text.toDecimal n, '\n' :: rest) := by
  have inside : ∀ c ∈ Text.toDecimal n, isScalarChar c = true := by
    intro c member
    simp [isScalarChar, Char.isAlphanum, Text.isDigit_of_mem_toDecimal member]
  have stops : Text.Stops isScalarChar ('\n' :: rest) := Text.stops_cons (by decide)
  rw [splitScalar, Text.takeWhile_append inside stops, Text.dropWhile_append inside stops]
  rfl

/-- A number is read up to the end of its line. -/
theorem value?_toDecimal (n : Nat) (rest : List Char) (fuel depth : Nat) :
    value? (fuel + 1) depth (Text.toDecimal n ++ '\n' :: rest) = some (.integer n, '\n' :: rest) := by
  have bare := isBareKey_toDecimal n
  unfold value?
  split
  next same => exact (bare.append_ne_cons (by decide) _ _ same).elim
  next same => exact (bare.append_ne_cons (by decide) _ _ same).elim
  next same => exact (bare.append_ne_cons (by decide) _ _ same).elim
  next same => exact (bare.append_ne_cons (by decide) _ _ same).elim
  next =>
    rw [splitScalar_toDecimal]
    simp only [scalar?_toDecimal, Option.map_some]

variable {name : List Char}

theorem skipVoid_of_first {c : Char} (first : isBareKeyChar c = true ∨ c = '[') (rest : List Char) :
    skipVoid false (c :: rest) = c :: rest := by
  have other : ∀ void, isBareKeyChar void = false → void ≠ '[' → c ≠ void := by
    rintro _ blank mark rfl
    rcases first with bare | same
    · rw [bare] at blank
      cases blank
    · exact mark same
  have blank := other ' ' (by decide) (by decide)
  have tab := other '\t' (by decide) (by decide)
  have hash := other '#' (by decide) (by decide)
  rw [skipVoid]
  · simp [blank, tab, hash]
  · exact other '\n' (by decide) (by decide)
  · intro _ carriage
    exact (other '\r' (by decide) (by decide) carriage).elim

/-- A line that is read as a statement, whatever follows it. -/
structure IsLine (line : List Char) (statement : Statement) : Prop where
  starts : ∀ rest, skipVoid false (line ++ rest) = line ++ rest
  reads : ∀ rest, statement? (line ++ '\n' :: rest) = some (statement, '\n' :: rest)

theorem isLine_pair (bare : IsBareKey name) (n : Nat) :
    IsLine (name ++ " = ".toList ++ Text.toDecimal n) (.pair [String.ofList name] (.integer n)) where
  starts rest := by
    obtain ⟨c, name, rfl, letter⟩ := bare.exists_eq_cons
    exact skipVoid_of_first (.inl letter) _
  reads rest := by
    have shape : name ++ " = ".toList ++ Text.toDecimal n ++ '\n' :: rest =
        name ++ ' ' :: '=' :: ' ' :: (Text.toDecimal n ++ '\n' :: rest) := by simp
    have key : limitedKey? (name ++ ' ' :: '=' :: ' ' :: (Text.toDecimal n ++ '\n' :: rest)) =
        some ([String.ofList name], '=' :: ' ' :: (Text.toDecimal n ++ '\n' :: rest)) :=
      limitedKey?_bare bare (Text.stops_cons (by decide)) (Text.stops_cons (by decide))
    have blank : skipBlank (' ' :: (Text.toDecimal n ++ '\n' :: rest)) = Text.toDecimal n ++ '\n' :: rest :=
      (isBareKey_toDecimal n).skipBlank_eq _
    rw [shape]
    unfold statement?
    split
    next same => exact (bare.append_ne_cons (by decide) _ _ same).elim
    next same => exact (bare.append_ne_cons (by decide) _ _ same).elim
    next => simp [key, expect?, blank, value?_toDecimal]

theorem statement?_header {text rest : List Char} {key : List String} (single : ∀ more, text ≠ '[' :: more)
    (reads : limitedKey? (skipBlank text) = some (key, ']' :: rest)) :
    statement? ('[' :: text) = some (.header key, rest) := by
  rw [statement?]
  · simp [reads, expect?]
  · exact single

theorem isLine_header (bare : IsBareKey name) : IsLine ('[' :: name ++ [']']) (.header [String.ofList name]) where
  starts rest := skipVoid_of_first (.inr rfl) _
  reads rest := by
    have shape : '[' :: name ++ [']'] ++ '\n' :: rest = '[' :: (name ++ ']' :: '\n' :: rest) := by simp
    rw [shape]
    refine statement?_header (bare.append_ne_cons (by decide) _) ?_
    rw [bare.skipBlank_eq]
    exact limitedKey?_bare bare (Text.stops_cons (by decide)) (Text.stops_cons (by decide))

/-- The header of a table with any key, inside one with a bare name. -/
theorem isLine_dottedHeader (bare : IsBareKey name) (key : List Char) :
    IsLine ('[' :: name ++ '.' :: printKey key ++ [']']) (.header [String.ofList name, String.ofList key]) where
  starts rest := skipVoid_of_first (.inr rfl) _
  reads rest := by
    have shape : '[' :: name ++ '.' :: printKey key ++ [']'] ++ '\n' :: rest =
        '[' :: (name ++ '.' :: (printKey key ++ ']' :: '\n' :: rest)) := by simp
    rw [shape]
    refine statement?_header (bare.append_ne_cons (by decide) _) ?_
    rw [bare.skipBlank_eq]
    exact limitedKey?_dotted bare key (Text.stops_cons (by decide)) (Text.stops_cons (by decide))

/-- A document: lines with statements and empty lines. -/
inductive Document : List Char → List Statement → Prop where
  | empty : Document [] []
  | blank {text : List Char} {statements : List Statement} : Document text statements →
      Document ('\n' :: text) statements
  | line {line text : List Char} {statement : Statement} {statements : List Statement} : IsLine line statement →
      Document text statements → Document (line ++ '\n' :: text) (statement :: statements)

/-- Every line has a line end at least, so a text is longer than it has statements. -/
theorem statements?_of_document {text : List Char} {statements : List Statement} (document : Document text statements)
    {fuel : Nat} (enough : text.length < fuel) : statements? fuel text = some statements := by
  induction document generalizing fuel with
  | empty =>
    obtain ⟨fuel, rfl⟩ := Nat.exists_eq_succ_of_ne_zero (Nat.ne_of_gt enough)
    rfl
  | @blank text statements _ ih =>
    obtain ⟨fuel, rfl⟩ := Nat.exists_eq_succ_of_ne_zero (Nat.ne_of_gt (Nat.zero_lt_of_lt enough))
    exact ih (Nat.lt_of_succ_lt enough)
  | @line line text statement statements written _ ih =>
    obtain ⟨fuel, rfl⟩ := Nat.exists_eq_succ_of_ne_zero (Nat.ne_of_gt (Nat.zero_lt_of_lt enough))
    have less : text.length < fuel := by
      simp only [List.length_append, List.length_cons] at enough
      omega
    have ends : endLine? ('\n' :: text) = some text := rfl
    rw [statements?, written.starts]
    split
    next nothing => simp at nothing
    next => simp [written.reads, ends, ih less]

theorem modifyField?_absent {name : String} {fields : Fields} (absent : name ∉ fields.map Prod.fst)
    (change : Option Toml → Option Toml) :
    modifyField? name change fields = (change none).map fun value => fields ++ [(name, value)] := by
  induction fields with
  | nil => rfl
  | cons field fields ih =>
    rw [List.map_cons, List.mem_cons, not_or] at absent
    obtain ⟨other, absent⟩ := absent
    rw [modifyField?, if_neg (Ne.symm other), ih absent, Option.map_map]
    rfl

theorem modifyField?_present {name : String} {front : Fields} (absent : name ∉ front.map Prod.fst) (value : Toml)
    (back : Fields) (change : Option Toml → Option Toml) :
    modifyField? name change (front ++ (name, value) :: back) =
      (change (some value)).map fun changed => front ++ (name, changed) :: back := by
  induction front with
  | nil => exact if_pos rfl
  | cons field front ih =>
    rw [List.map_cons, List.mem_cons, not_or] at absent
    obtain ⟨other, absent⟩ := absent
    rw [List.cons_append, modifyField?, if_neg (Ne.symm other), ih absent, Option.map_map]
    rfl

section Tables

variable {table name : String} {front inner : Fields}

/-- A header of two names opens a table inside one that it implies. -/
theorem openTable?_implied (absent : table ∉ front.map Prod.fst) :
    openTable? [table, name] front = some (front ++ [(table, .table .implied [(name, .table .header [])])]) := by
  rw [openTable?, modifyField?_absent absent]
  · rfl
  · exact List.cons_ne_nil name []

/-- A later header of this kind opens one more table behind those that are there. -/
theorem openTable?_beside (absent : table ∉ front.map Prod.fst) (new : name ∉ inner.map Prod.fst) :
    openTable? [table, name] (front ++ [(table, .table .implied inner)]) =
      some (front ++ [(table, .table .implied (inner ++ [(name, .table .header [])]))]) := by
  have opened : openTable? [name] inner = some (inner ++ [(name, .table .header [])]) := by
    rw [openTable?, modifyField?_absent new]
    rfl
  rw [openTable?, modifyField?_present absent]
  · simp only [opened, Option.map_some]
  · exact List.cons_ne_nil name []

/-- A pair behind such a header goes into the table that was opened. -/
theorem within?_define? (absent : table ∉ front.map Prod.fst) (new : name ∉ inner.map Prod.fst) (key : String)
    (value : Toml) :
    within? (define? value key []) [table, name]
        (front ++ [(table, .table .implied (inner ++ [(name, .table .header [])]))]) =
      some (front ++ [(table, .table .implied (inner ++ [(name, .table .header [(key, value)])]))]) := by
  have filled : within? (define? value key []) [name] (inner ++ [(name, .table .header [])]) =
      some (inner ++ [(name, .table .header [(key, value)])]) := by
    rw [within?, modifyField?_present new]
    rfl
  rw [within?, modifyField?_present absent]
  simp only [filled, Option.map_some]

end Tables

end ReviewChecks.Toml
