/-
Dates as HTTP writes them, in Greenwich time: `Thu, 25 Nov 2010 20:00:27
GMT`. A moment is given in seconds since the start of 1970.
-/

namespace Depot.HttpDate

/-- The days of the week. The first day of 1970 is the first of them. -/
def weekdays : List String := ["Thu", "Fri", "Sat", "Sun", "Mon", "Tue", "Wed"]

/-- The months from March on, so that a leap day is the last of a year. -/
def months : List String :=
  ["Mar", "Apr", "May", "Jun", "Jul", "Aug", "Sep", "Oct", "Nov", "Dec", "Jan", "Feb"]

/-- The days of 400 years, after which the calendar repeats. -/
def cycle : Nat := 146097

/-- The days from the first of March of year 0 to the start of 1970. -/
def epoch : Nat := 719468

/-- Year, month counted from March, and day of a day after `epoch` days. A
year begins in March here. -/
def ofDays (days : Nat) : Nat × Nat × Nat :=
  let z := days + epoch
  let day := z % cycle
  let year := (day - day / 1460 + day / 36524 - day / 146096) / 365
  let dayOfYear := day - (365 * year + year / 4 - year / 100)
  let month := (5 * dayOfYear + 2) / 153
  (z / cycle * 400 + year, month, dayOfYear - (153 * month + 2) / 5 + 1)

/-- A number with a zero in front where it has one digit. -/
def twoDigits (n : Nat) : String := if n < 10 then "0" ++ toString n else toString n

/-- The date of a moment. -/
def ofSeconds (seconds : Nat) : String :=
  let days := seconds / 86400
  let time := seconds % 86400
  let (year, month, day) := ofDays days
  let clock := twoDigits (time / 3600) ++ ":" ++ twoDigits (time / 60 % 60) ++ ":"
    ++ twoDigits (time % 60)
  weekdays.getD (days % 7) "" ++ ", " ++ twoDigits day ++ " " ++ months.getD month "" ++ " "
    ++ toString (if month < 10 then year else year + 1) ++ " " ++ clock ++ " GMT"

end Depot.HttpDate
