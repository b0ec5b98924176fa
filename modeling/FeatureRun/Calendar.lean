/-!
# Dates

The lengths of years and months, and the date and time of day of a number of seconds since the
beginning of 1970.
-/
set_option autoImplicit false

namespace FeatureRun.Calendar

def isLeap (year : Nat) : Bool := year % 4 == 0 && (year % 100 != 0 || year % 400 == 0)

def daysInYear (year : Nat) : Nat := if isLeap year then 366 else 365

def daysInMonth (year month : Nat) : Nat :=
  if month = 2 then (if isLeap year then 29 else 28)
  else if [4, 6, 9, 11].contains month then 30
  else 31

/-- The year of a day counted from the beginning of `year`, and the day counted within it. `fuel`
bounds the number of years between. -/
def splitYears (fuel year day : Nat) : Nat × Nat :=
  match fuel with
  | 0 => (year, day)
  | n + 1 =>
    if day < daysInYear year then (year, day) else splitYears n (year + 1) (day - daysInYear year)

/-- The month and day of a day counted within a year from the beginning of `month`. -/
def splitMonths (year fuel month day : Nat) : Nat × Nat :=
  match fuel with
  | 0 => (month, day + 1)
  | n + 1 =>
    if day < daysInMonth year month then (month, day + 1)
    else splitMonths year n (month + 1) (day - daysInMonth year month)

def twoDigits (n : Nat) : String := if n < 10 then "0" ++ toString n else toString n

/-- The time of day of a number of seconds. -/
def timeOfDay (seconds : Int) : String :=
  let s := (seconds.fmod 86400).toNat
  twoDigits (s / 3600) ++ ":" ++ twoDigits (s / 60 % 60) ++ ":" ++ twoDigits (s % 60)

/-- Why there is no time of day for a number of seconds. -/
inductive ClockFault where
  /-- The number takes more than 64 bits. -/
  | seconds
  /-- The number of the year takes more than 32 bits. -/
  | year
  deriving DecidableEq, Repr

namespace ClockFault

def message : ClockFault → String
  | .seconds => "timestamp out of range for platform time_t"
  | .year => "[Errno 75] Value too large for defined data type"

end ClockFault

/-- The last second whose year, counted from 1900, takes 32 bits. -/
def lastSecond : Int := 67768036191676799

/-- The first such second. -/
def firstSecond : Int := -67768040609740800

/-- The time of day of a number of seconds, if clocks go that far. -/
def clock (seconds : Int) : Except ClockFault String :=
  if seconds < -0x8000000000000000 || 0x8000000000000000 ≤ seconds then .error .seconds
  else if seconds < firstSecond || lastSecond < seconds then .error .year
  else .ok (timeOfDay seconds)

/-- The date and the time of day of a number of seconds. -/
def stamp (seconds : Nat) : String :=
  let days := seconds / 86400
  let (year, day) := splitYears (days / 365 + 1) 1970 days
  let (month, day) := splitMonths year 12 1 day
  toString year ++ "-" ++ twoDigits month ++ "-" ++ twoDigits day ++ " " ++ timeOfDay seconds

end FeatureRun.Calendar
