/-
AccessRights/Proofs/JsonText.lean

JSON texts are read back.

What is written never has a blank between its parts, and the reader never has to
guess where a part ends: brackets and quotes close themselves, and after a numeral
there is a comma, a closing bracket or nothing.  So a value is read back in front
of every text that delimits it, by induction on the value; the depth that the
reader allows is the length of the text, and every level of nesting has brackets
that make its text longer.

A value is plain when all its numerals are natural numbers and all its texts are
strings.  These are the values that the library writes.

Main results: `readUnits?_writeChar` (escaping), `readSequence?_intercalate`
(lists and records alike) and `Plain.ofText?_toText`.
-/
import AccessRights.Json.Reader
import AccessRights.Json.Writer
import AccessRights.Proofs.Numerals

namespace AccessRights

/-! ### Strings as texts -/

/-- A text is made of characters, so that it comes back as a string. -/
theorem stringOfText?_textOfString (s : String) : stringOfText? (textOfString s) = some s := by
  have hchars : (s.toList.map TextUnit.char).mapM TextUnit.char? = some (s.toList.map id) :=
    mapM_map_eq_some fun _ _ => rfl
  rw [stringOfText?, textOfString, hchars, Option.map_some, List.map_id, String.ofList_toList]

namespace Json

/-! ### Escaped characters -/

/-- The escape of a small code has four digits, from which the code is read. -/
theorem exists_digits_of_codeEscape {code : Nat} (h : code < 16 ^ 4) :
    ∃ a b c d, codeEscape code = ['\\', 'u', a, b, c, d] ∧ hexValue? [a, b, c, d] = some code := by
  have hle := length_hexadecimal_le (by decide) h
  have hvalue := hexValue?_padded (4 - (hexadecimal code).length) code
  have hlength : (List.replicate (4 - (hexadecimal code).length) '0' ++ hexadecimal code).length
      = 4 := by
    rw [List.length_append, List.length_replicate]
    omega
  unfold codeEscape
  dsimp only
  rw [List.cons_append, List.cons_append]
  generalize List.replicate (4 - (hexadecimal code).length) '0' ++ hexadecimal code = digits at *
  match digits, hlength with
  | [a, b, c, d], _ => exact ⟨a, b, c, d, rfl, hvalue⟩

/-- A written character is read back, whatever follows it. -/
theorem readUnits?_writeChar (c : Char) (rest : List Char) :
    readUnits? (writeChar c ++ rest) =
      (readUnits? rest).map fun read => (.char c :: read.1, read.2) := by
  unfold writeChar
  split
  -- the letters that have an escape of their own
  iterate 7
    rw [List.cons_append, List.cons_append, List.nil_append, readUnits?]
    · cases readUnits? rest <;> rfl
    · rintro a b c d more ⟨⟩
  -- other characters are escaped by their code, or stand for themselves
  rename_i hquote hbackslash _ _ _ _ _
  split
  · rename_i hcontrol
    obtain ⟨a, b, d, e, hescape, hvalue⟩ :=
      exists_digits_of_codeEscape (show c.toNat < 16 ^ 4 by omega)
    have hunit : unitOfCode c.toNat = .char c := by
      rw [unitOfCode, if_neg (by omega), Char.ofNat_toNat]
    rw [hescape]
    simp only [List.cons_append, List.nil_append, readUnits?, hvalue]
    cases readUnits? rest with
    | none => rfl
    | some read =>
      rw [← hunit]
      rfl
  · rename_i hprintable
    rw [List.cons_append, List.nil_append, readUnits?, if_neg hprintable]
    · cases readUnits? rest <;> rfl
    · exact hquote
    · rintro a b d e more rfl
      exact absurd rfl hbackslash
    · rintro letter more rfl
      exact absurd rfl hbackslash

/-! ### Texts -/

theorem joinHalves_char (chars : List Char) :
    joinHalves (chars.map .char) = chars.map .char := by
  induction chars with
  | nil => rfl
  | cons c chars ih =>
    rw [List.map_cons, joinHalves, ih]
    rintro high low more ⟨⟩

/-- A written string is read back up to its closing quote. -/
theorem readText?_textOfString (s : String) (rest : List Char) :
    readText? ((textOfString s).flatMap writeUnit ++ '"' :: rest) =
      some (textOfString s, rest) := by
  have hunits (chars : List Char) :
      readUnits? ((chars.map TextUnit.char).flatMap writeUnit ++ '"' :: rest) =
        some (chars.map .char, rest) := by
    induction chars with
    | nil => rfl
    | cons c chars ih =>
      rw [List.map_cons, List.flatMap_cons, List.append_assoc]
      show readUnits? (writeChar c ++ _) = _
      rw [readUnits?_writeChar, ih]
      rfl
  rw [readText?, textOfString, hunits]
  show some (joinHalves _, rest) = _
  rw [joinHalves_char]

/-! ### What follows and what begins a value -/

/-- A comma or a closing bracket comes first, or nothing does. -/
def Delimited (rest : List Char) : Prop :=
  ∀ c ∈ rest.head?, c = ',' ∨ c = ']' ∨ c = '}'

theorem delimited_nil : Delimited [] := by
  rintro c ⟨⟩

theorem delimited_cons {c : Char} (h : c = ',' ∨ c = ']' ∨ c = '}') (rest : List Char) :
    Delimited (c :: rest) := by
  rintro _ ⟨⟩
  exact h

/-- What begins like this is neither passed over as a blank nor taken for the end of a list or
record. -/
def Opens (text : List Char) : Prop :=
  ∃ c rest, text = c :: rest ∧ isSpace c = false ∧ c ≠ ']' ∧ c ≠ '}'

theorem skipSpace_cons {c : Char} (h : isSpace c = false) (rest : List Char) :
    skipSpace (c :: rest) = c :: rest :=
  List.dropWhile_cons_of_neg (by simp [h])

/-! ### Numerals -/

/-- What delimits a value is no digit. -/
theorem Delimited.endsDigits {rest : List Char} (h : Delimited rest) : EndsDigits rest := by
  intro c hc
  obtain rfl | rfl | rfl := h c hc <;> rfl

/-- Digits are read up to where they end. -/
theorem readDigits?_append {digits rest : List Char} (hdigits : ∀ c ∈ digits, c.isDigit = true)
    (hne : digits ≠ []) (hrest : EndsDigits rest) :
    readDigits? (digits ++ rest) = some (digits, rest) := by
  have htake : (digits ++ rest).takeWhile Char.isDigit = digits := by
    rw [List.takeWhile_append_of_pos hdigits, hrest.takeWhile, List.append_nil]
  have hdrop : (digits ++ rest).dropWhile Char.isDigit = rest := by
    rw [List.dropWhile_append_of_pos hdigits, hrest.dropWhile]
  rw [readDigits?, htake, hdrop]
  cases digits with
  | nil => exact absurd rfl hne
  | cons digit digits => rfl

/-- A number without a point has no fraction. -/
theorem Delimited.readFractionPart? {rest : List Char} (h : Delimited rest) :
    readFractionPart? rest = some ([], rest) := by
  rw [Json.readFractionPart?]
  rintro more rfl
  have := h '.' rfl
  simp at this

/-- A number without a mark has no exponent. -/
theorem Delimited.readExponentPart? {rest : List Char} (h : Delimited rest) :
    readExponentPart? rest = some ([], rest) := by
  cases rest with
  | nil => rfl
  | cons c rest =>
    have hmark : ¬ (c = 'e' ∨ c = 'E') := by
      obtain rfl | rfl | rfl := h c rfl <;> decide
    unfold Json.readExponentPart?
    exact if_neg hmark

/-- A natural number is read back where a value may end. -/
theorem readNumeral?_decimal (n : Nat) {rest : List Char} (h : Delimited rest) :
    readNumeral? (decimal n ++ rest) = some (.natural n, rest) := by
  have hdigits (c : Char) (hc : c ∈ decimal n) : c.isDigit = true := isDigit_of_mem_decimal hc
  have hwhole : ¬ ((decimal n).head? = some '0' ∧ decimal n ≠ ['0']) := by
    rintro ⟨hzero, hne⟩
    exact hne (by rw [eq_zero_of_head_decimal hzero]; rfl)
  unfold readNumeral?
  split
  rename_i sign after hsplit
  have hsign : sign = [] ∧ after = decimal n ++ rest := by
    split at hsplit
    · -- a numeral does not begin with a sign
      rename_i hminus
      obtain ⟨d, ds, hd⟩ := List.exists_cons_of_ne_nil (decimal_ne_nil n)
      rw [hd, List.cons_append, List.cons.injEq] at hminus
      have := hdigits d (hd ▸ List.mem_cons_self)
      rw [hminus.1] at this
      exact absurd this (by decide)
    · cases hsplit
      exact ⟨rfl, rfl⟩
  obtain ⟨rfl, rfl⟩ := hsign
  rw [readDigits?_append hdigits (decimal_ne_nil n) h.endsDigits]
  simp [h.readFractionPart?, h.readExponentPart?, hwhole, decimalValue_decimal]

/-! ### Lists and records -/

variable {α : Type} {readItem? : List Char → Option (α × List Char)}
  {writeItem : α → List Char} {items : List α} {close : Char}

/-- Every item is read back where it is delimited. -/
def ReadsBack (readItem? : List Char → Option (α × List Char)) (writeItem : α → List Char)
    (items : List α) : Prop :=
  ∀ item ∈ items, Opens (writeItem item) ∧
    ∀ rest, Delimited rest → readItem? (writeItem item ++ rest) = some (item, rest)

theorem intercalate_cons {texts : List (List Char)} (h : texts ≠ []) (text : List Char) :
    [','].intercalate (text :: texts) = text ++ ',' :: [','].intercalate texts := by
  rw [List.intercalate_cons_of_ne_nil h, List.append_assoc]
  rfl

/-- Items between commas are read one by one, up to the bracket that closes them. -/
theorem readItems?_intercalate (hclose : close = ']' ∨ close = '}') (hne : items ≠ [])
    (hitems : ReadsBack readItem? writeItem items) {bound : Nat} (hbound : items.length ≤ bound)
    (rest : List Char) :
    readItems? readItem? close bound ([','].intercalate (items.map writeItem) ++ close :: rest) =
      some (items, rest) := by
  have hspace : isSpace close = false := by obtain rfl | rfl := hclose <;> rfl
  induction items generalizing bound with
  | nil => exact absurd rfl hne
  | cons item items ih =>
    obtain ⟨bound, rfl⟩ : ∃ n, bound = n + 1 :=
      Nat.exists_eq_add_one_of_ne_zero (Nat.ne_of_gt (Nat.lt_of_lt_of_le (Nat.succ_pos _) hbound))
    have hread := (hitems item List.mem_cons_self).2
    rw [readItems?]
    -- behind the last item comes the bracket, behind any other a comma
    cases items with
    | nil =>
      rw [List.map_singleton, List.intercalate_singleton,
        hread _ (delimited_cons (.inr hclose) rest)]
      simp [skipSpace_cons hspace]
    | cons next items =>
      have hcomma : ',' ≠ close := by obtain rfl | rfl := hclose <;> decide
      have hmore := ih (by simp) (fun other hother => hitems other (List.mem_cons_of_mem _ hother))
        (Nat.le_of_succ_le_succ hbound)
      rw [List.map_cons, intercalate_cons (by simp), List.append_assoc, List.cons_append,
        hread _ (delimited_cons (.inl rfl) _)]
      simp only [Option.bind_eq_bind, Option.bind_some,
        skipSpace_cons (show isSpace ',' = false from rfl), if_neg hcomma, if_true]
      rw [hmore]
      rfl

/-- Every item has a text of its own among the items with separators between them. -/
theorem length_le_intercalate {text : List Char} {texts : List (List Char)} (h : text ∈ texts) :
    text.length ≤ ([','].intercalate texts).length := by
  induction texts with
  | nil => cases h
  | cons first texts ih =>
    cases texts with
    | nil =>
      have htext := List.mem_singleton.1 h
      exact Nat.le_of_eq (by rw [htext, List.intercalate_singleton])
    | cons next texts =>
      rw [intercalate_cons (by simp), List.length_append, List.length_cons]
      obtain rfl | h := List.mem_cons.1 h
      · exact Nat.le_add_right _ _
      · have := ih h
        omega

/-- There are no more items than characters. -/
theorem length_le_of_opens {texts : List (List Char)} (h : ∀ text ∈ texts, Opens text) :
    texts.length ≤ ([','].intercalate texts).length := by
  induction texts with
  | nil => exact Nat.zero_le _
  | cons first texts ih =>
    obtain ⟨c, rest, rfl, -⟩ := h first List.mem_cons_self
    cases texts with
    | nil =>
      rw [List.intercalate_singleton]
      exact Nat.succ_le_succ (Nat.zero_le _)
    | cons next texts =>
      have := ih fun text htext => h text (List.mem_cons_of_mem _ htext)
      rw [intercalate_cons (by simp)]
      simp only [List.length_append, List.length_cons] at this ⊢
      omega

/-- A list or a record is read back after its opening bracket, if its items are. -/
theorem readSequence?_intercalate (hclose : close = ']' ∨ close = '}')
    (hitems : ReadsBack readItem? writeItem items) (rest : List Char) :
    readSequence? readItem? close ([','].intercalate (items.map writeItem) ++ close :: rest) =
      some (items, rest) := by
  have hspace : isSpace close = false := by obtain rfl | rfl := hclose <;> rfl
  cases hcase : items with
  | nil =>
    rw [List.map_nil, List.intercalate_nil, List.nil_append, readSequence?, skipSpace_cons hspace]
    exact if_pos rfl
  | cons item others =>
    -- every item takes a character at least, so the length of the text is bound enough
    have hlength : items.length ≤
        ([','].intercalate (items.map writeItem) ++ close :: rest).length := by
      have hopens (text : List Char) (htext : text ∈ items.map writeItem) : Opens text := by
        obtain ⟨other, hother, rfl⟩ := List.mem_map.1 htext
        exact (hitems other hother).1
      have hle := length_le_of_opens hopens
      rw [List.length_map] at hle
      rw [List.length_append]
      omega
    have hread := readItems?_intercalate hclose (by simp [hcase]) hitems hlength rest
    rw [← hcase]
    obtain ⟨c, more, hopens, hblank, hne, hne'⟩ :
        Opens ([','].intercalate (items.map writeItem) ++ close :: rest) := by
      obtain ⟨c, text, htext, hopens⟩ := (hitems item (by simp [hcase])).1
      rw [hcase, List.map_cons, htext, List.intercalate_cons_cons_left]
      exact ⟨c, _, rfl, hopens⟩
    rw [hopens] at hread ⊢
    rw [readSequence?, skipSpace_cons hblank]
    refine (if_neg ?_).trans hread
    obtain rfl | rfl := hclose <;> assumption

/-- Items are written with commas in between. -/
theorem writeItems_eq (items : List Json) :
    writeItems items = [','].intercalate (items.map write) := by
  induction items with
  | nil => rfl
  | cons item items ih =>
    cases items with
    | nil => rw [writeItems, List.map_singleton, List.intercalate_singleton]
    | cons next items =>
      rw [List.map_cons, intercalate_cons (by simp), ← ih]
      rfl

/-- So are fields. -/
theorem writeFields_eq (fields : List (List TextUnit × Json)) :
    writeFields fields = [','].intercalate (fields.map writeField) := by
  induction fields with
  | nil => rfl
  | cons field fields ih =>
    cases fields with
    | nil => rw [writeFields, List.map_singleton, List.intercalate_singleton]
    | cons next fields =>
      rw [List.map_cons, intercalate_cons (by simp), ← ih]
      rfl

/-! ### Values -/

/-- All numerals in the value are natural numbers, and all texts are strings. -/
inductive Plain : Json → Prop
  | null : Plain .null
  | bool (value : Bool) : Plain (.bool value)
  | natural (value : Nat) : Plain (.natural value)
  | string (s : String) : Plain (.string s)
  | list {items : List Json} (plain : ∀ item ∈ items, Plain item) : Plain (.list items)
  | ofFields {fields : List (String × Json)} (plain : ∀ field ∈ fields, Plain field.2) :
      Plain (.ofFields fields)

variable {value : Json}

/-- A digit is no blank. -/
theorem isSpace_of_isDigit {c : Char} (h : c.isDigit = true) : isSpace c = false := by
  cases hspace : isSpace c with
  | false => rfl
  | true =>
    simp only [isSpace, Bool.or_eq_true, beq_iff_eq] at hspace
    obtain ((rfl | rfl) | rfl) | rfl := hspace <;> cases h

theorem exists_digit_of_decimal (n : Nat) :
    ∃ d digits, decimal n = d :: digits ∧ d.isDigit = true := by
  obtain ⟨d, digits, hd⟩ := List.exists_cons_of_ne_nil (decimal_ne_nil n)
  exact ⟨d, digits, hd, isDigit_of_mem_decimal (hd ▸ List.mem_cons_self)⟩

/-- What is written of a value begins with no blank and with no closing bracket. -/
theorem Plain.opens (h : value.Plain) : Opens value.write := by
  cases h with
  | null | string | list | ofFields => exact ⟨_, _, rfl, by decide, by decide, by decide⟩
  | bool value => cases value <;> exact ⟨_, _, rfl, by decide, by decide, by decide⟩
  | natural n =>
    obtain ⟨d, digits, hd, hdigit⟩ := exists_digit_of_decimal n
    refine ⟨d, digits, hd, isSpace_of_isDigit hdigit, ?_, ?_⟩ <;> rintro rfl <;> cases hdigit

/-- A field with its name as a text. -/
def named (field : String × Json) : List TextUnit × Json :=
  (textOfString field.1, field.2)

/-- A name, a colon and a value are read back, if the value is. -/
theorem readField?_writeField {readValue? : List Char → Option (Json × List Char)} (name : String)
    {rest : List Char} (h : readValue? (value.write ++ rest) = some (value, rest)) :
    readField? readValue? (writeField (textOfString name, value) ++ rest) =
      some ((textOfString name, value), rest) := by
  have htext : writeField (textOfString name, value) ++ rest =
      '"' :: ((textOfString name).flatMap writeUnit ++ '"' :: ':' :: (value.write ++ rest)) := by
    simp [writeField, writeText]
  rw [htext, readField?, skipSpace_cons rfl]
  simp only [dropWord?, if_true, Option.bind_eq_bind, Option.bind_some, readText?_textOfString,
    skipSpace_cons (show isSpace ':' = false from rfl), h]

/-- What begins with a digit is read as a numeral. -/
theorem readValue?_of_isDigit {c : Char} (h : c.isDigit = true) (depth : Nat) (rest : List Char) :
    readValue? (depth + 1) (c :: rest) = readNumeral? (c :: rest) := by
  rw [readValue?, skipSpace_cons (isSpace_of_isDigit h)]
  split
  -- none of the other values begins with a digit
  iterate 6
    rename_i hother
    cases hother
    cases h
  rfl

/-- A plain value is read back in front of every text that delimits it. -/
theorem Plain.readValue?_write (h : value.Plain) {depth : Nat}
    (hdepth : value.write.length ≤ depth) {rest : List Char} (hrest : Delimited rest) :
    readValue? (depth + 1) (value.write ++ rest) = some (value, rest) := by
  induction h generalizing depth rest with
  | null => rfl
  | bool value => cases value <;> rfl
  | natural n =>
    obtain ⟨d, digits, hd, hdigit⟩ := exists_digit_of_decimal n
    have hread := readNumeral?_decimal n hrest
    show readValue? _ (decimal n ++ rest) = _
    rw [hd, List.cons_append] at hread ⊢
    rw [readValue?_of_isDigit hdigit, hread]
  | string s =>
    have htext : (Json.string s).write ++ rest =
        '"' :: ((textOfString s).flatMap writeUnit ++ '"' :: rest) := by
      simp [Json.string, write, writeText]
    rw [htext, readValue?, skipSpace_cons rfl]
    simp only [readText?_textOfString, Option.bind_eq_bind, Option.bind_some]
    rfl
  | @list items plain ih =>
    have hwrite : (Json.list items).write =
        '[' :: ([','].intercalate (items.map write) ++ [']']) := by
      rw [write, writeItems_eq]
      rfl
    rw [hwrite, List.length_cons, List.length_append] at hdepth
    obtain ⟨depth, rfl⟩ : ∃ n, depth = n + 1 := ⟨depth - 1, by omega⟩
    -- the items are shorter than the list by its brackets, so the depth is enough for them
    have hitems : ReadsBack (readValue? (depth + 1)) write items := by
      intro item hitem
      have hle := length_le_intercalate (List.mem_map_of_mem (f := write) hitem)
      exact ⟨(plain item hitem).opens, fun rest hrest => ih item hitem (by omega) hrest⟩
    have htext : (Json.list items).write ++ rest =
        '[' :: ([','].intercalate (items.map write) ++ ']' :: rest) := by
      rw [hwrite, List.cons_append, List.append_assoc]
      rfl
    rw [htext, readValue?, skipSpace_cons rfl]
    simp only [readSequence?_intercalate (.inl rfl) hitems, Option.bind_eq_bind, Option.bind_some]
  | @ofFields fields plain ih =>
    have hwrite : (Json.ofFields fields).write =
        '{' :: ([','].intercalate ((fields.map named).map writeField) ++ ['}']) := by
      rw [Json.ofFields, write, writeFields_eq]
      rfl
    rw [hwrite, List.length_cons, List.length_append] at hdepth
    obtain ⟨depth, rfl⟩ : ∃ n, depth = n + 1 := ⟨depth - 1, by omega⟩
    have hfields : ReadsBack (readField? (readValue? (depth + 1))) writeField
        (fields.map named) := by
      intro item hitem
      have hle := length_le_intercalate (List.mem_map_of_mem (f := writeField) hitem)
      obtain ⟨field, hfield, rfl⟩ := List.mem_map.1 hitem
      have hvalue : field.2.write.length ≤ (writeField (named field)).length := by
        rw [named, writeField, List.length_append, List.length_cons]
        omega
      refine ⟨⟨'"', _, rfl, by decide, by decide, by decide⟩, fun rest hrest => ?_⟩
      exact readField?_writeField field.1 (ih field hfield (by omega) hrest)
    have htext : (Json.ofFields fields).write ++ rest =
        '{' :: ([','].intercalate ((fields.map named).map writeField) ++ '}' :: rest) := by
      rw [hwrite, List.cons_append, List.append_assoc]
      rfl
    rw [htext, readValue?, skipSpace_cons rfl]
    simp only [readSequence?_intercalate (.inr rfl) hfields, Option.bind_eq_bind,
      Option.bind_some]
    rfl

/-- The text of a plain value is read as that value. -/
theorem Plain.ofText?_toText (h : value.Plain) : ofText? value.toText = some value := by
  have hread := h.readValue?_write (Nat.le_refl _) delimited_nil
  rw [List.append_nil] at hread
  rw [ofText?, toText, String.toList_ofList, read?, hread]
  rfl

end Json

end AccessRights
