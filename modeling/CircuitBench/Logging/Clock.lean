/-!
# Times as text

A time is given in seconds of universal time from the start of the year 1970. Its text has the date
and the time of day.  Dates follow the calendar in which every fourth year is a leap year, but of
the hundredth years only every fourth.

The date of a day is found by counting from the first of March of the year zero, so that the day
that a leap year adds is the last of a year.  Four hundred years have the same number of days
wherever they start.

## Main results

* `ofDay_zero` : the count starts with the year 1970.
-/

namespace CircuitBench.Clock

/-- A date. -/
structure Date where
  year : Int
  month : Nat
  day : Nat
deriving DecidableEq, Repr

/-- The days of four hundred years. -/
def daysOfCycle : Nat := 146097

/-- The days from the first of March of the year zero to the start of the count. -/
def daysToStart : Int := 719468

/-- The year among four hundred, counted from March, in which a day falls. -/
def yearOfCycle (day : Nat) : Nat :=
  (day - day / 1460 + day / 36524 - day / 146096) / 365

/-- The day of a year, counted from March, for a day among those of four hundred years. -/
def dayOfYear (day : Nat) : Nat :=
  let year := yearOfCycle day
  day - (365 * year + year / 4 - year / 100)

/-- The month, counted from March, in which a day of a year falls. -/
def monthFromMarch (dayOfYear : Nat) : Nat :=
  (5 * dayOfYear + 2) / 153

/-- The date of a day, counted from the start. -/
def ofDay (day : Int) : Date :=
  let shifted := day + daysToStart
  let cycle := shifted.fdiv daysOfCycle
  let within := (shifted.fmod daysOfCycle).toNat
  let year := yearOfCycle within
  let march := monthFromMarch (dayOfYear within)
  let month := if march < 10 then march + 3 else march - 9
  ⟨cycle * 400 + year + (if month ≤ 2 then 1 else 0), month, dayOfYear within - (153 * march + 2) / 5 + 1⟩

/-- A number of at least two digits. -/
def twoDigits (n : Nat) : String :=
  if n < 10 then "0" ++ toString n else toString n

/-- The date and the time of day of a time. -/
def text (seconds : Int) : String :=
  let date := ofDay (seconds.fdiv 86400)
  let rest := (seconds.fmod 86400).toNat
  toString date.year ++ "-" ++ twoDigits date.month ++ "-" ++ twoDigits date.day ++ " " ++
    twoDigits (rest / 3600) ++ ":" ++ twoDigits (rest / 60 % 60) ++ ":" ++ twoDigits (rest % 60)

theorem ofDay_zero : ofDay 0 = ⟨1970, 1, 1⟩ := by decide

end CircuitBench.Clock
