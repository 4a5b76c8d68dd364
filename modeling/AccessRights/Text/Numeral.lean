/-
AccessRights/Text/Numeral.lean

Decimal and hexadecimal numerals as lists of characters: writing them,
with leading zeros up to a width where a format asks for it, and taking
the digits at the start of a text.

Decimal numerals are written by `Nat.toDigits 10` and valued by
`Nat.ofDigitChars 10`, which core proves inverse to each other.
-/

namespace AccessRights

/-! ### Decimal -/

/-- The decimal numeral of a number. -/
def decimal (n : Nat) : List Char :=
  Nat.toDigits 10 n

/-- The decimal numeral of a number, filled with leading zeros up to `width` digits. -/
def paddedDecimal (width n : Nat) : List Char :=
  List.replicate (width - (decimal n).length) '0' ++ decimal n

/-- The value of a list of decimal digits. -/
def decimalValue (digits : List Char) : Nat :=
  Nat.ofDigitChars 10 digits 0

/-- The longest run of at most `width` decimal digits at the start of a text, and the rest. -/
def spanDigits (width : Nat) (text : List Char) : List Char × List Char :=
  let digits := (text.take width).takeWhile Char.isDigit
  (digits, text.drop digits.length)

/-- The number written by one to `width` decimal digits at the start of a text, and the rest. -/
def readNumber? (width : Nat) (text : List Char) : Option (Nat × List Char) :=
  match spanDigits width text with
  | ([], _) => none
  | (digits, rest) => some (decimalValue digits, rest)

/-! ### Hexadecimal -/

/-- The lower-case hexadecimal numeral of a number. -/
def hexadecimal (n : Nat) : List Char :=
  Nat.toDigits 16 n

/-- The value of a hexadecimal digit in either case. -/
def hexDigit? (c : Char) : Option Nat :=
  if '0' ≤ c ∧ c ≤ '9' then some (c.toNat - '0'.toNat)
  else if 'a' ≤ c ∧ c ≤ 'f' then some (c.toNat - 'a'.toNat + 10)
  else if 'A' ≤ c ∧ c ≤ 'F' then some (c.toNat - 'A'.toNat + 10)
  else none

/-- The value of hexadecimal digits that follow digits of value `high`, `none` when a
character is no such digit. -/
def hexValueAfter? : Nat → List Char → Option Nat
  | high, [] => some high
  | high, c :: rest => do hexValueAfter? (16 * high + (← hexDigit? c)) rest

/-- The value of a non-empty hexadecimal numeral. -/
def hexValue? : List Char → Option Nat
  | [] => none
  | digits => hexValueAfter? 0 digits

end AccessRights
