/-
AccessRights/Timestamp.lean

Moments of civil time in UTC, kept as calendar fields.

A date exists or it does not, and a time of day is in range or it is not;
both facts are fields of the types, so that every value is a real moment.
The second may be 60, a leap second.  Years reach from -262143 to 262142.

Nothing here measures durations: moments are stored, compared and written.
The one computation is the move from a local time to UTC, by minutes.
-/

namespace AccessRights

/-! ### Dates -/

/-- Whether a year has a 29th of February in the Gregorian calendar. -/
def isLeapYear (year : Int) : Bool :=
  year % 4 == 0 && (year % 100 != 0 || year % 400 == 0)

/-- The number of days of a month, zero if there is no such month. -/
def daysInMonth (year : Int) (month : Nat) : Nat :=
  match month with
  | 1 | 3 | 5 | 7 | 8 | 10 | 12 => 31
  | 4 | 6 | 9 | 11 => 30
  | 2 => if isLeapYear year then 29 else 28
  | _ => 0

/-- The first year that dates reach back to. -/
def firstYear : Int := -262143

/-- The last year that dates reach up to. -/
def lastYear : Int := 262142

/-- A day of the Gregorian calendar. -/
structure Date where
  year : Int
  month : Nat
  day : Nat
  year_range : firstYear ≤ year ∧ year ≤ lastYear
  day_range : 1 ≤ day ∧ day ≤ daysInMonth year month
deriving DecidableEq

namespace Date

/-- The date of the given numbers, if there is one. -/
def ofNumbers? (year : Int) (month day : Nat) : Option Date :=
  if hyear : firstYear ≤ year ∧ year ≤ lastYear then
    if hday : 1 ≤ day ∧ day ≤ daysInMonth year month then
      some ⟨year, month, day, hyear, hday⟩
    else none
  else none

/-- The day after. -/
def next? (date : Date) : Option Date :=
  ofNumbers? date.year date.month (date.day + 1)
    <|> ofNumbers? date.year (date.month + 1) 1
    <|> ofNumbers? (date.year + 1) 1 1

/-- The day before. -/
def previous? (date : Date) : Option Date :=
  ofNumbers? date.year date.month (date.day - 1)
    <|> ofNumbers? date.year (date.month - 1) (daysInMonth date.year (date.month - 1))
    <|> ofNumbers? (date.year - 1) 12 31

theorem ofNumbers?_self (date : Date) :
    ofNumbers? date.year date.month date.day = some date := by
  simp [ofNumbers?, date.year_range, date.day_range]

end Date

/-! ### Moments -/

/-- A moment in UTC, to the nanosecond. -/
structure Timestamp where
  date : Date
  hour : Nat
  minute : Nat
  second : Nat
  nanosecond : Nat
  time_range : hour < 24 ∧ minute < 60 ∧ second ≤ 60 ∧ nanosecond < 1000000000
deriving DecidableEq

namespace Timestamp

/-- The moment of the given date and time of day, if the time is in range. -/
def ofNumbers? (date : Date) (hour minute second nanosecond : Nat) : Option Timestamp :=
  if h : hour < 24 ∧ minute < 60 ∧ second ≤ 60 ∧ nanosecond < 1000000000 then
    some ⟨date, hour, minute, second, nanosecond, h⟩
  else none

/-- The start of the year 1970. -/
def epoch : Timestamp :=
  ⟨⟨1970, 1, 1, by decide, by decide⟩, 0, 0, 0, 0, by decide⟩

instance : Inhabited Timestamp := ⟨epoch⟩

/-- The moment a clock shows that is `minutes` ahead of UTC by less than a day, read as
UTC: the local reading less the offset. -/
def lessMinutes? (localTime : Timestamp) (minutes : Int) : Option Timestamp :=
  let total := (localTime.hour * 60 + localTime.minute : Nat) - minutes
  let at? (date : Date) (minuteOfDay : Int) : Option Timestamp :=
    ofNumbers? date (minuteOfDay.toNat / 60) (minuteOfDay.toNat % 60)
      localTime.second localTime.nanosecond
  if total < 0 then do at? (← localTime.date.previous?) (total + 1440)
  else if total < 1440 then at? localTime.date total
  else do at? (← localTime.date.next?) (total - 1440)

theorem ofNumbers?_self (moment : Timestamp) :
    ofNumbers? moment.date moment.hour moment.minute moment.second moment.nanosecond
      = some moment := by
  simp [ofNumbers?, moment.time_range]

/-- A clock that shows UTC needs no correction. -/
theorem lessMinutes?_zero (moment : Timestamp) : moment.lessMinutes? 0 = some moment := by
  obtain ⟨hhour, hminute, -, -⟩ := moment.time_range
  have hdiv : (moment.hour * 60 + moment.minute) / 60 = moment.hour := by omega
  have hmod : (moment.hour * 60 + moment.minute) % 60 = moment.minute := by omega
  have hneg : ¬ ((moment.hour * 60 + moment.minute : Nat) - 0 : Int) < 0 := by omega
  have hday : ((moment.hour * 60 + moment.minute : Nat) - 0 : Int) < 1440 := by omega
  simp only [lessMinutes?, if_neg hneg, if_pos hday]
  simp only [Int.sub_zero, Int.toNat_natCast, hdiv, hmod]
  exact moment.ofNumbers?_self

end Timestamp

end AccessRights
