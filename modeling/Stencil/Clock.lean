/-!
# Dates and times

A moment is a number of seconds since the beginning of 1970, read in UTC by the Gregorian
calendar. Years from 0 to 9999 have four digits; other years carry a sign.
-/

namespace Stencil

/-- Seconds since 1970-01-01 00:00:00. -/
structure Moment where
  seconds : Int
deriving DecidableEq, Repr

/-- A day of the Gregorian calendar. -/
structure CivilDate where
  year : Int
  month : Nat
  day : Nat
deriving DecidableEq, Repr

namespace Moment

/-- Days since 1970-01-01. -/
def days (m : Moment) : Int := m.seconds.fdiv 86400

/-- Seconds since midnight. -/
def secondOfDay (m : Moment) : Nat := (m.seconds.fmod 86400).toNat

/-- The day of a moment. Days are counted from 0000-03-01, so that the leap day ends its year;
400 years have 146097 days. -/
def date (m : Moment) : CivilDate :=
  let z := m.days + 719468
  let era := z.fdiv 146097
  let dayOfEra := (z - era * 146097).toNat
  let yearOfEra :=
    (dayOfEra - dayOfEra / 1460 + dayOfEra / 36524 - dayOfEra / 146096) / 365
  let dayOfYear := dayOfEra - (365 * yearOfEra + yearOfEra / 4 - yearOfEra / 100)
  let monthFromMarch := (5 * dayOfYear + 2) / 153
  let month := if monthFromMarch < 10 then monthFromMarch + 3 else monthFromMarch - 9
  { year := era * 400 + yearOfEra + (if month ≤ 2 then 1 else 0)
    month := month
    day := dayOfYear - (153 * monthFromMarch + 2) / 5 + 1 }

/-- `n` with zeros in front up to `width` digits. -/
def zeroPadded (width n : Nat) : String :=
  String.ofList (List.replicate (width - (toString n).length) '0') ++ toString n

/-- A year as four digits, with a sign when it needs more or lies before the year 0. -/
def yearText (y : Int) : String :=
  if 0 ≤ y ∧ y ≤ 9999 then zeroPadded 4 y.toNat
  else (if y < 0 then "-" else "+") ++ zeroPadded 4 y.natAbs

/-- Year, month and day with `separator` between them. -/
def dateText (m : Moment) (separator : String) : String :=
  yearText m.date.year ++ separator ++ zeroPadded 2 m.date.month ++ separator ++
    zeroPadded 2 m.date.day

/-- Hours and minutes. -/
def minuteText (m : Moment) : String :=
  zeroPadded 2 (m.secondOfDay / 3600) ++ ":" ++ zeroPadded 2 (m.secondOfDay / 60 % 60)

/-- Hours, minutes and seconds. -/
def timeText (m : Moment) : String :=
  m.minuteText ++ ":" ++ zeroPadded 2 (m.secondOfDay % 60)

end Moment

end Stencil
