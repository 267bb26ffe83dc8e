/-!
Days of the proleptic Gregorian calendar, in the years -262143 to 262142. A date carries the
evidence that its day exists, so every addition either stays in the calendar or has no result.
Days are counted from 1 January of the year 0; the count and the date determine each other.
-/

namespace Agenda

/-- Every fourth year, without the centuries that 400 does not divide. -/
def isLeapYear (year : Int) : Bool :=
  year % 4 == 0 && (year % 100 != 0 || year % 400 == 0)

/-- Number of days of a month, January being 1. -/
def daysInMonth (year : Int) : Nat → Nat
  | 2 => if isLeapYear year then 29 else 28
  | 4 | 6 | 9 | 11 => 30
  | _ => 31

namespace Date

def minYear : Int := -262143

def maxYear : Int := 262142

/-- The day exists and its year is inside the calendar's range. -/
def Valid (year : Int) (month day : Nat) : Prop :=
  (minYear ≤ year ∧ year ≤ maxYear) ∧ (1 ≤ month ∧ month ≤ 12) ∧
    (1 ≤ day ∧ day ≤ daysInMonth year month)

instance (year : Int) (month day : Nat) : Decidable (Valid year month day) :=
  inferInstanceAs (Decidable (_ ∧ _ ∧ _))

end Date

structure Date where
  year : Int
  month : Nat
  day : Nat
  valid : Date.Valid year month day
  deriving DecidableEq

namespace Date

def ofParts? (year : Int) (month day : Nat) : Option Date :=
  if h : Valid year month day then some ⟨year, month, day, h⟩ else none

/-- Later on the calendar: the year decides, then the month, then the day. A time of day plays no
part. -/
def isAfter (a b : Date) : Bool :=
  decide (b.year < a.year) ||
    (a.year == b.year &&
      (decide (b.month < a.month) || (a.month == b.month && decide (b.day < a.day))))

/-- Days from 1 January of the year 0 to 1 January of the given year. -/
def daysBeforeYear (year : Int) : Int :=
  365 * year + (year + 3) / 4 - (year + 99) / 100 + (year + 399) / 400

/-- Days of the first `months` months of a year. -/
def daysBeforeMonth (year : Int) : Nat → Nat
  | 0 => 0
  | months + 1 => daysBeforeMonth year months + daysInMonth year (months + 1)

/-- Days from 1 January of the year 0. -/
def ordinal (d : Date) : Int :=
  daysBeforeYear d.year + daysBeforeMonth d.year (d.month - 1) + (d.day - 1 : Nat)

/-- The year that holds the day with this count. Four centuries have 146097 days, so a division
misses it by one year at most. -/
def yearOfOrdinal (n : Int) : Int :=
  let guess := 400 * n / 146097
  if n < daysBeforeYear guess then guess - 1
  else if daysBeforeYear (guess + 1) ≤ n then guess + 1
  else guess

/-- Month and day of the day that comes `rest` days after the first of the first listed month. -/
def monthAndDay (year : Int) : List Nat → Nat → Option (Nat × Nat)
  | [], _ => none
  | month :: months, rest =>
      if rest < daysInMonth year month then some (month, rest + 1)
      else monthAndDay year months (rest - daysInMonth year month)

def monthNumbers : List Nat := [1, 2, 3, 4, 5, 6, 7, 8, 9, 10, 11, 12]

/-- The date with this count of days, if it lies inside the calendar's range. -/
def ofOrdinal? (n : Int) : Option Date :=
  let year := yearOfOrdinal n
  (monthAndDay year monthNumbers (n - daysBeforeYear year).toNat).bind fun (month, day) =>
    ofParts? year month day

def addDays? (d : Date) (days : Nat) : Option Date :=
  ofOrdinal? (d.ordinal + days)

/-- The same month and day so many years later, 29 February becoming 28 February where the year has
none. -/
def addYears? (d : Date) (years : Nat) : Option Date :=
  ofParts? (d.year + years) d.month (min d.day (daysInMonth (d.year + years) d.month))

end Date

/-! The clock. -/

namespace Clock

/-- The day of a reading. The clock counts from the start of 1 January 1970 and cannot be read
before that. A reading gives the day alone, so it is judged as if the clock stood at Greenwich:
elsewhere the first or the last hours of a day can lie on the other side. -/
def today? (reading : Date) : Option Date :=
  if reading.year < 1970 then none else some reading

end Clock

end Agenda
