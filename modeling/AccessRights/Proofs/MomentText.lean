/-
AccessRights/Proofs/MomentText.lean

Moments are read back.

The reader takes blanks and short numerals that the writer never writes.  On
what is written it has no choice: the numbers of two digits fill their width, a
year ends at the hyphen, a fraction at the letter Z, and no blank stands
anywhere.

Main results: `readYear?_yearText`, `readFraction?_fractionText` and
`Timestamp.read?_text`.
-/
import AccessRights.Proofs.Numerals
import AccessRights.Timestamp.Text

namespace AccessRights

/-! ### Blanks and marks -/

/-- A digit is no blank. -/
theorem isBlank_of_isDigit {c : Char} (h : c.isDigit = true) : isBlank c = false := by
  simp only [Char.isDigit, Bool.and_eq_true, decide_eq_true_eq, ge_iff_le, UInt32.le_iff_toNat_le]
    at h
  have hlow : 48 ≤ c.toNat := h.1
  have hhigh : c.toNat ≤ 57 := h.2
  simp only [isBlank, blankRanges, List.any_cons, List.any_nil, Bool.or_false, Bool.or_eq_false_iff,
    Bool.and_eq_false_iff, decide_eq_false_iff_not]
  omega

theorem trimStart_paddedDecimal (width n : Nat) (rest : List Char) :
    trimStart (paddedDecimal width n ++ rest) = paddedDecimal width n ++ rest := by
  refine trimStart_eq_self fun c hc => ?_
  rw [List.head?_append_of_ne_nil _ (paddedDecimal_ne_nil width n)] at hc
  exact isBlank_of_isDigit (isDigit_of_mem_paddedDecimal (List.mem_of_mem_head? hc))

theorem skipMark?_cons {mark : Char} (h : isBlank mark = false) (rest : List Char) :
    skipMark? mark (mark :: rest) = some rest := by
  rw [skipMark?, trimStart_cons_of_not_blank rest h]
  exact if_pos rfl

theorem readTwoDigits?_paddedDecimal {n : Nat} (h : n < 100) (rest : List Char) :
    readTwoDigits? (paddedDecimal 2 n ++ rest) = some (n, rest) := by
  rw [readTwoDigits?, trimStart_paddedDecimal, readNumber?_paddedDecimal (by decide) h]

/-! ### Years -/

/-- A numeral in front of no digit is read whole, if there is room for it. -/
theorem readNumber?_length (width n : Nat) {rest : List Char} (h : EndsDigits rest) :
    readNumber? (paddedDecimal width n ++ rest).length (paddedDecimal width n ++ rest) =
      some (n, rest) := by
  rw [readNumber?_append (fun _ => isDigit_of_mem_paddedDecimal) (paddedDecimal_ne_nil width n)
    (by simp) (.inr h), decimalValue_paddedDecimal]

/-- A year is read back where no digit follows. -/
theorem readYear?_yearText (year : Int) {rest : List Char} (h : EndsDigits rest) :
    readYear? (yearText year ++ rest) = some (year, rest) := by
  unfold yearText
  split
  · -- four digits, which do not begin with a sign
    rename_i hyear
    have hread : readNumber? 4 (paddedDecimal 4 year.toNat ++ rest) = some (year.toNat, rest) :=
      readNumber?_paddedDecimal (by decide) (by omega) rest
    obtain ⟨d, digits, hd⟩ := List.exists_cons_of_ne_nil (paddedDecimal_ne_nil 4 year.toNat)
    have hdigit : d.isDigit = true := isDigit_of_mem_paddedDecimal (hd ▸ List.mem_cons_self)
    have htrim := trimStart_paddedDecimal 4 year.toNat rest
    rw [hd, List.cons_append] at hread htrim ⊢
    unfold readYear?
    rw [htrim]
    split
    · rename_i heq
      cases heq
      cases hdigit
    · rename_i heq
      cases heq
      cases hdigit
    · rw [hread]
      show some ((year.toNat : Int), rest) = _
      rw [Int.toNat_of_nonneg hyear.1]
  · have hread := readNumber?_length 4 year.natAbs h
    unfold readYear?
    by_cases hneg : year < 0
    · rw [if_pos hneg, List.cons_append, trimStart_cons_of_not_blank _ (by decide)]
      simp only [hread, Option.bind_eq_bind, Option.bind_some]
      rw [show (-(year.natAbs : Int)) = year by omega]
    · rw [if_neg hneg, List.cons_append, trimStart_cons_of_not_blank _ (by decide)]
      simp only [hread, Option.bind_eq_bind, Option.bind_some]
      rw [show (year.natAbs : Int) = year by omega]

/-! ### Fractions -/

/-- The digits of a fraction are read in nanoseconds. -/
theorem readFraction?_paddedDecimal {width n : Nat} (hwidth : 0 < width) (hmost : width ≤ 9)
    (h : n < 10 ^ width) {rest : List Char} (hrest : EndsDigits rest) :
    readFraction? ('.' :: paddedDecimal width n ++ rest) = some (10 ^ (9 - width) * n, rest) := by
  have hlength := length_paddedDecimal hwidth h
  have hspan : spanDigits 9 (paddedDecimal width n ++ rest) = (paddedDecimal width n, rest) :=
    spanDigits_append (fun _ => isDigit_of_mem_paddedDecimal) (by omega) (.inr hrest)
  have hvalue : decimalValue (paddedDecimal width n ++
      List.replicate (9 - (paddedDecimal width n).length) '0') = 10 ^ (9 - width) * n := by
    rw [decimalValue, Nat.ofDigitChars_append, Nat.ofDigitChars_replicate_zero, hlength]
    exact congrArg _ (decimalValue_paddedDecimal width n)
  rw [List.cons_append, readFraction?, hspan]
  split
  · rename_i heq
    exact absurd (Prod.mk.inj heq).1 (paddedDecimal_ne_nil width n)
  · rename_i heq
    cases heq
    rw [hvalue, hrest.dropWhile]

/-- The fraction is read back whatever number of digits it has. -/
theorem readFraction?_fractionText {nanosecond : Nat} (h : nanosecond < 10 ^ 9)
    {rest : List Char} (hrest : EndsDigits rest) (hpoint : rest.head? ≠ some '.') :
    readFraction? (fractionText nanosecond ++ rest) = some (nanosecond, rest) := by
  unfold fractionText
  split
  · rename_i hzero
    rw [List.nil_append, hzero, readFraction?]
    rintro more rfl
    exact hpoint rfl
  split
  · rw [readFraction?_paddedDecimal (by decide) (by decide) (by omega) hrest]
    congr
    omega
  split
  · rw [readFraction?_paddedDecimal (by decide) (by decide) (by omega) hrest]
    congr
    omega
  · rw [readFraction?_paddedDecimal (by decide) (by decide) h hrest, Nat.sub_self, Nat.pow_zero,
      Nat.one_mul]

/-! ### Moments -/

theorem daysInMonth_le (year : Int) (month : Nat) : daysInMonth year month ≤ 31 := by
  unfold daysInMonth
  grind

theorem daysInMonth_of_lt (year : Int) {month : Nat} (h : 12 < month) :
    daysInMonth year month = 0 := by
  unfold daysInMonth
  split <;> omega

theorem Date.month_lt (date : Date) : date.month < 100 := by
  obtain ⟨hfirst, hlast⟩ := date.day_range
  by_contra hmonth
  rw [daysInMonth_of_lt date.year (by omega)] at hlast
  omega

theorem Date.day_lt (date : Date) : date.day < 100 := by
  have hmonth := daysInMonth_le date.year date.month
  have hday := date.day_range.2
  omega

/-- A date is read back, whatever follows it. -/
theorem readDate?_text (date : Date) (rest : List Char) :
    readDate? (date.text ++ rest) = some (date, rest) := by
  have hyear := readYear?_yearText date.year
    (endsDigits_cons (c := '-')
      (paddedDecimal 2 date.month ++ '-' :: (paddedDecimal 2 date.day ++ rest)) rfl)
  rw [Date.text, readDate?]
  simp only [List.append_assoc, List.cons_append, hyear, Option.bind_eq_bind, Option.bind_some,
    skipMark?_cons (show isBlank '-' = false from rfl),
    readTwoDigits?_paddedDecimal date.month_lt, readTwoDigits?_paddedDecimal date.day_lt,
    date.ofNumbers?_self]

/-- The text of a moment is read as that moment. -/
theorem Timestamp.read?_text (moment : Timestamp) : Timestamp.read? moment.text = some moment := by
  obtain ⟨hhour, hminute, hsecond, hnanosecond⟩ := moment.time_range
  have hfraction : readFraction? (fractionText moment.nanosecond ++ ['Z']) =
      some (moment.nanosecond, ['Z']) :=
    readFraction?_fractionText hnanosecond (endsDigits_cons [] rfl) (by decide)
  rw [Timestamp.text, Timestamp.read?]
  simp only [List.append_assoc, List.cons_append, readDate?_text, Option.bind_eq_bind,
    Option.bind_some, skipMark?_cons (show isBlank ':' = false from rfl),
    readTwoDigits?_paddedDecimal (show moment.hour < 100 by omega),
    readTwoDigits?_paddedDecimal (show moment.minute < 100 by omega),
    readTwoDigits?_paddedDecimal (show moment.second < 100 by omega), hfraction]
  show ((Timestamp.ofNumbers? _ _ _ _ _).bind fun localTime => localTime.lessMinutes? 0) = _
  rw [moment.ofNumbers?_self, Option.bind_some, moment.lessMinutes?_zero]

end AccessRights
