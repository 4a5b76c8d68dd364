/-
AccessRights/Timestamp/Text.lean

The text form of a moment: `2024-02-29T12:34:56.789Z`.

Writing is fixed: UTC, a year of four digits (or a signed one outside
0 .. 9999), and a fraction of 0, 3, 6 or 9 digits, the fewest of these that
lose nothing.

Reading takes the wider family of RFC 3339 texts: any offset below a day,
numbers without leading zeros, a blank for the letter T, blanks before
numbers and marks, and fractions of any length, of which nine digits count.

Main definitions: `Timestamp.text` and `Timestamp.read?`.
-/
import AccessRights.Timestamp
import AccessRights.Text.Blank
import AccessRights.Text.Numeral

namespace AccessRights

/-! ### Writing -/

/-- A year as it is written: four digits, outside 0 .. 9999 with a sign. -/
def yearText (year : Int) : List Char :=
  if 0 ≤ year ∧ year ≤ 9999 then paddedDecimal 4 year.toNat
  else (if year < 0 then '-' else '+') :: paddedDecimal 4 year.natAbs

/-- The fraction of a second: a point and 3, 6 or 9 digits, or nothing for a whole second. -/
def fractionText (nanosecond : Nat) : List Char :=
  if nanosecond = 0 then []
  else if nanosecond % 1000000 = 0 then '.' :: paddedDecimal 3 (nanosecond / 1000000)
  else if nanosecond % 1000 = 0 then '.' :: paddedDecimal 6 (nanosecond / 1000)
  else '.' :: paddedDecimal 9 nanosecond

/-- A date as it is written. -/
def Date.text (date : Date) : List Char :=
  yearText date.year ++ '-' :: paddedDecimal 2 date.month ++ '-' :: paddedDecimal 2 date.day

/-- A moment as it is written. -/
def Timestamp.text (moment : Timestamp) : List Char :=
  moment.date.text ++ 'T' :: paddedDecimal 2 moment.hour
    ++ ':' :: paddedDecimal 2 moment.minute
    ++ ':' :: paddedDecimal 2 moment.second
    ++ fractionText moment.nanosecond ++ ['Z']

/-! ### Reading the parts -/

/-- Drops blanks and the given mark, which must follow them. -/
def skipMark? (mark : Char) (text : List Char) : Option (List Char) :=
  match trimStart text with
  | c :: rest => if c = mark then some rest else none
  | [] => none

/-- A year: up to four digits, or a sign and any number of digits. -/
def readYear? (text : List Char) : Option (Int × List Char) :=
  match trimStart text with
  | '-' :: rest => do
    let (n, rest) ← readNumber? rest.length rest
    some (-(n : Int), rest)
  | '+' :: rest => do
    let (n, rest) ← readNumber? rest.length rest
    some ((n : Int), rest)
  | rest => do
    let (n, rest) ← readNumber? 4 rest
    some ((n : Int), rest)

/-- A number of one or two digits after optional blanks. -/
def readTwoDigits? (text : List Char) : Option (Nat × List Char) :=
  readNumber? 2 (trimStart text)

/-- A date, as far as its text reaches. -/
def readDate? (text : List Char) : Option (Date × List Char) := do
  let (year, rest) ← readYear? text
  let rest ← skipMark? '-' rest
  let (month, rest) ← readTwoDigits? rest
  let rest ← skipMark? '-' rest
  let (day, rest) ← readTwoDigits? rest
  let date ← Date.ofNumbers? year month day
  some (date, rest)

/-- A fraction of a second in nanoseconds; zero when no point stands here. -/
def readFraction? : List Char → Option (Nat × List Char)
  | '.' :: text =>
    match spanDigits 9 text with
    | ([], _) => none
    | (digits, rest) =>
      some (decimalValue (digits ++ List.replicate (9 - digits.length) '0'),
        rest.dropWhile Char.isDigit)
  | text => some (0, text)

/-- Two decimal digits that must both be there. -/
def readPair? : List Char → Option (Nat × List Char)
  | a :: b :: rest =>
    if a.isDigit && b.isDigit then some (decimalValue [a, b], rest) else none
  | _ => none

/-- The minutes that a signed offset such as `+05:30` is ahead of UTC. -/
def readSignedOffset? (sign : Int) (text : List Char) : Option (Int × List Char) := do
  let (hours, rest) ← readPair? text
  let (minutes, rest) ← readPair? (rest.dropWhile fun c => c == ':' || isBlank c)
  if minutes < 60 ∧ hours < 24 then
    some (sign * (hours * 60 + minutes : Nat), rest)
  else none

/-- The minutes that the offset at the end of a moment's text is ahead of UTC.  The minus
sign of typesetting is as good as the hyphen. -/
def readOffset? : List Char → Option (Int × List Char)
  | 'Z' :: rest | 'z' :: rest => some (0, rest)
  | '+' :: rest => readSignedOffset? 1 rest
  | '-' :: rest | '\u2212' :: rest => readSignedOffset? (-1) rest
  | u :: t :: c :: rest =>
    if u.toUpper = 'U' ∧ t.toUpper = 'T' ∧ c.toUpper = 'C' then some (0, rest) else none
  | _ => none

/-! ### Reading a moment -/

/-- Reads a moment in any offset and gives it in UTC. -/
def Timestamp.read? (text : List Char) : Option Timestamp := do
  let (date, rest) ← readDate? text
  let rest ← match rest with
    | 'T' :: rest | 't' :: rest | ' ' :: rest => some rest
    | _ => none
  let (hour, rest) ← readTwoDigits? rest
  let rest ← skipMark? ':' rest
  let (minute, rest) ← readTwoDigits? rest
  let rest ← skipMark? ':' rest
  let (second, rest) ← readTwoDigits? rest
  let (nanosecond, rest) ← readFraction? rest
  let (ahead, rest) ← readOffset? (trimStart rest)
  if (trimStart rest).isEmpty then
    let localTime ← Timestamp.ofNumbers? date hour minute second nanosecond
    localTime.lessMinutes? ahead
  else none

end AccessRights
