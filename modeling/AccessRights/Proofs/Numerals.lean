/-
AccessRights/Proofs/Numerals.lean

Numerals are read back.

A reader of digits takes as many as there are, or as many as it may, so a numeral
can be told from what follows it only where no digit follows, or where the
numeral is as wide as the reader takes.  Under either condition what was written
is what is read, and the rest of the text is left.

Main results: `spanDigits_append`, `readNumber?_paddedDecimal` and
`hexValue?_padded`.
-/
import AccessRights.Text.Numeral
import Mathlib.Algebra.Group.Nat.Defs
import Mathlib.Data.List.Basic

namespace AccessRights

/-! ### Reading item by item -/

/-- Items that are each read from what was written for them are read from the list of it. -/
theorem mapM_map_eq_some {α β γ : Type} {write : α → β} {read? : β → Option γ} {value : α → γ}
    {items : List α} (h : ∀ item ∈ items, read? (write item) = some (value item)) :
    (items.map write).mapM read? = some (items.map value) := by
  induction items with
  | nil => rfl
  | cons item items ih =>
    rw [List.map_cons, List.mapM_cons, h item List.mem_cons_self,
      ih fun other hother => h other (List.mem_cons_of_mem _ hother)]
    rfl

/-! ### Decimal numerals -/

theorem isDigit_of_mem_decimal {n : Nat} {c : Char} (h : c ∈ decimal n) : c.isDigit = true :=
  Nat.isDigit_of_mem_toDigits (by decide) (by decide) h

theorem decimal_ne_nil (n : Nat) : decimal n ≠ [] :=
  Nat.toDigits_ne_nil

/-- Plain digits read back as the number. -/
theorem decimalValue_decimal (n : Nat) : decimalValue (decimal n) = n :=
  Nat.ofDigitChars_ten_toDigits

/-- A numeral that begins with a zero is the zero. -/
theorem eq_zero_of_head_decimal {n : Nat} (h : (decimal n).head? = some '0') : n = 0 := by
  induction n using Nat.strongRecOn with
  | ind n ih =>
    unfold decimal at h ih
    rw [Nat.toDigits_eq_if (by decide)] at h
    split at h
    · exact Nat.digitChar_eq_zero.1 (Option.some.inj h)
    · rw [List.head?_append_of_ne_nil _ Nat.toDigits_ne_nil] at h
      have := ih (n / 10) (by omega) h
      omega

theorem isDigit_of_mem_paddedDecimal {width n : Nat} {c : Char} (h : c ∈ paddedDecimal width n) :
    c.isDigit = true := by
  obtain h | h := List.mem_append.1 h
  · rw [List.eq_of_mem_replicate h]
    rfl
  · exact isDigit_of_mem_decimal h

theorem paddedDecimal_ne_nil (width n : Nat) : paddedDecimal width n ≠ [] :=
  List.append_ne_nil_of_right_ne_nil _ (decimal_ne_nil n)

/-- Leading zeros do not count. -/
theorem decimalValue_paddedDecimal (width n : Nat) : decimalValue (paddedDecimal width n) = n := by
  rw [decimalValue, paddedDecimal, Nat.ofDigitChars_append, Nat.ofDigitChars_replicate_zero,
    Nat.mul_zero]
  exact decimalValue_decimal n

/-- A number that fits has just as many digits as it is padded to. -/
theorem length_paddedDecimal {width n : Nat} (hwidth : 0 < width) (h : n < 10 ^ width) :
    (paddedDecimal width n).length = width := by
  have hle : (decimal n).length ≤ width := (Nat.length_toDigits_le_iff (by decide) hwidth).2 h
  rw [paddedDecimal, List.length_append, List.length_replicate]
  omega

/-! ### Reading digits -/

/-- No digit comes first, so that a run of digits in front of the text ends there. -/
def EndsDigits (rest : List Char) : Prop :=
  ∀ c ∈ rest.head?, c.isDigit = false

/-- Whatever is no digit ends the digits. -/
theorem endsDigits_cons {c : Char} (rest : List Char) (h : c.isDigit = false) :
    EndsDigits (c :: rest) := by
  rintro _ ⟨⟩
  exact h

theorem EndsDigits.takeWhile {rest : List Char} (h : EndsDigits rest) :
    rest.takeWhile Char.isDigit = [] := by
  cases rest with
  | nil => rfl
  | cons c rest => exact List.takeWhile_cons_of_neg (by simp [h c rfl])

theorem EndsDigits.dropWhile {rest : List Char} (h : EndsDigits rest) :
    rest.dropWhile Char.isDigit = rest := by
  cases rest with
  | nil => rfl
  | cons c rest => exact List.dropWhile_cons_of_neg (by simp [h c rfl])

/-- Digits are taken to the last one if no digit follows them, or if no more may be taken. -/
theorem spanDigits_append {width : Nat} {digits rest : List Char}
    (hdigits : ∀ c ∈ digits, c.isDigit = true) (hlength : digits.length ≤ width)
    (hrest : digits.length = width ∨ EndsDigits rest) :
    spanDigits width (digits ++ rest) = (digits, rest) := by
  have hmore : (rest.take (width - digits.length)).takeWhile Char.isDigit = [] := by
    obtain hfull | hends := hrest
    · rw [hfull, Nat.sub_self]
      rfl
    · cases rest with
      | nil => simp
      | cons c rest =>
        cases width - digits.length with
        | zero => rfl
        | succ more => exact List.takeWhile_cons_of_neg (by simp [hends c rfl])
  have hspan : ((digits ++ rest).take width).takeWhile Char.isDigit = digits := by
    rw [List.take_append, List.take_of_length_le hlength, List.takeWhile_append_of_pos hdigits,
      hmore, List.append_nil]
  rw [spanDigits, hspan, List.drop_left]

/-- The number of some digits is read as far as they go. -/
theorem readNumber?_append {width : Nat} {digits rest : List Char}
    (hdigits : ∀ c ∈ digits, c.isDigit = true) (hne : digits ≠ []) (hlength : digits.length ≤ width)
    (hrest : digits.length = width ∨ EndsDigits rest) :
    readNumber? width (digits ++ rest) = some (decimalValue digits, rest) := by
  rw [readNumber?, spanDigits_append hdigits hlength hrest]
  cases digits with
  | nil => exact absurd rfl hne
  | cons digit digits => rfl

/-- A numeral that fills its width is read back in front of any text. -/
theorem readNumber?_paddedDecimal {width n : Nat} (hwidth : 0 < width) (h : n < 10 ^ width)
    (rest : List Char) : readNumber? width (paddedDecimal width n ++ rest) = some (n, rest) := by
  have hlength := length_paddedDecimal hwidth h
  rw [readNumber?_append (fun _ => isDigit_of_mem_paddedDecimal) (paddedDecimal_ne_nil width n)
    (Nat.le_of_eq hlength) (.inl hlength), decimalValue_paddedDecimal]

/-! ### Hexadecimal numerals -/

theorem hexDigit?_digitChar {d : Nat} (h : d < 16) : hexDigit? d.digitChar = some d := by
  decide +revert

/-- Digits are read from the left, each shifting what came before. -/
theorem hexValueAfter?_append (high : Nat) (digits more : List Char) :
    hexValueAfter? high (digits ++ more) =
      (hexValueAfter? high digits).bind (hexValueAfter? · more) := by
  induction digits generalizing high with
  | nil => rfl
  | cons c digits ih =>
    rw [List.cons_append, hexValueAfter?, hexValueAfter?]
    cases hexDigit? c with
    | none => rfl
    | some d => exact ih _

theorem hexValueAfter?_digitChar (high : Nat) {d : Nat} (h : d < 16) :
    hexValueAfter? high [d.digitChar] = some (16 * high + d) := by
  rw [hexValueAfter?, hexDigit?_digitChar h]
  rfl

/-- Hexadecimal digits read back as the number. -/
theorem hexValueAfter?_hexadecimal (n : Nat) : hexValueAfter? 0 (hexadecimal n) = some n := by
  induction n using Nat.strongRecOn with
  | ind n ih =>
    unfold hexadecimal at ih ⊢
    rw [Nat.toDigits_eq_if (by decide)]
    split
    · rename_i hlt
      rw [hexValueAfter?_digitChar 0 hlt, Nat.mul_zero, Nat.zero_add]
    · rw [hexValueAfter?_append, ih (n / 16) (by omega), Option.bind_some,
        hexValueAfter?_digitChar _ (Nat.mod_lt _ (by decide)), Nat.div_add_mod]

/-- Zeros in front make no difference to a hexadecimal number. -/
theorem hexValueAfter?_zeros (count : Nat) (digits : List Char) :
    hexValueAfter? 0 (List.replicate count '0' ++ digits) = hexValueAfter? 0 digits := by
  induction count with
  | zero => rfl
  | succ count ih => exact ih

/-- A hexadecimal numeral is read back, and zeros in front of it do not count. -/
theorem hexValue?_padded (zeros n : Nat) :
    hexValue? (List.replicate zeros '0' ++ hexadecimal n) = some n := by
  have hne : List.replicate zeros '0' ++ hexadecimal n ≠ [] :=
    List.append_ne_nil_of_right_ne_nil _ Nat.toDigits_ne_nil
  have hvalue := (hexValueAfter?_zeros zeros (hexadecimal n)).trans (hexValueAfter?_hexadecimal n)
  rw [hexValue?]
  · exact hvalue
  · exact hne

theorem length_hexadecimal_le {width n : Nat} (hwidth : 0 < width) (h : n < 16 ^ width) :
    (hexadecimal n).length ≤ width :=
  (Nat.length_toDigits_le_iff (by decide) hwidth).2 h

/-- A hexadecimal numeral consists of hexadecimal digits. -/
theorem exists_digit_of_mem_hexadecimal {n : Nat} {c : Char} (h : c ∈ hexadecimal n) :
    ∃ d < 16, c = d.digitChar := by
  induction n using Nat.strongRecOn with
  | ind n ih =>
    unfold hexadecimal at ih h
    rw [Nat.toDigits_eq_if (by decide)] at h
    split at h
    · exact ⟨n, by assumption, List.mem_singleton.1 h⟩
    · obtain h | h := List.mem_append.1 h
      · exact ih (n / 16) (by omega) h
      · exact ⟨n % 16, Nat.mod_lt _ (by decide), List.mem_singleton.1 h⟩

end AccessRights
