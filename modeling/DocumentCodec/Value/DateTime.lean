import DocumentCodec.Text.Numeral

namespace DocumentCodec

/-!
# Points in time

A point in time is a signed number of milliseconds since the start of 1970 in
universal time.  Within the range of the calendar it has a date and a time of
day in the Gregorian calendar, extended in both directions.
-/

/-- Milliseconds since the start of 1970. -/
structure DateTime where
  millis : Int64
  deriving DecidableEq, Inhabited

/-- A Gregorian date with a time of day. -/
structure CalendarTime where
  year : Int
  month : Nat
  day : Nat
  hour : Nat
  minute : Nat
  second : Nat
  milli : Nat
  deriving Repr, DecidableEq

namespace CalendarTime

/-- The first millisecond that has a calendar time. -/
def firstMillis : Int := -8334601228800000

/-- The last millisecond that has a calendar time. -/
def lastMillis : Int := 8210266876799999

/-- Milliseconds in a day. -/
def millisPerDay : Int := 86400000

/--
The date a number of days after the start of 1970.  Years are counted from
March, so that a leap day is the last of its year, in cycles of 400 years.
-/
def dateOfDays (days : Int) : Int × Nat × Nat :=
  let shifted := days + 719468
  let cycle := shifted / 146097
  let dayOfCycle := (shifted % 146097).toNat
  let yearOfCycle :=
    (dayOfCycle - dayOfCycle / 1460 + dayOfCycle / 36524 - dayOfCycle / 146096) / 365
  let dayOfYear :=
    dayOfCycle - (365 * yearOfCycle + yearOfCycle / 4 - yearOfCycle / 100)
  let marchMonth := (5 * dayOfYear + 2) / 153
  let day := dayOfYear - (153 * marchMonth + 2) / 5 + 1
  let month := if marchMonth < 10 then marchMonth + 3 else marchMonth - 9
  let year := (yearOfCycle : Int) + cycle * 400 + (if month ≤ 2 then 1 else 0)
  (year, month, day)

/-- The number of days from the start of 1970 to a date. -/
def daysOfDate (year : Int) (month day : Nat) : Int :=
  let marchYear := if month ≤ 2 then year - 1 else year
  let cycle := marchYear / 400
  let yearOfCycle := marchYear % 400
  let marchMonth := if 2 < month then month - 3 else month + 9
  let dayOfYear := (153 * marchMonth + 2) / 5 + day - 1
  let dayOfCycle := yearOfCycle * 365 + yearOfCycle / 4 - yearOfCycle / 100 + dayOfYear
  cycle * 146097 + dayOfCycle - 719468

/-- The calendar time of a point in time, when it lies in the calendar's range. -/
def ofDateTime? (time : DateTime) : Option CalendarTime :=
  let millis := time.millis.toInt
  if firstMillis ≤ millis ∧ millis ≤ lastMillis then
    let (year, month, day) := dateOfDays (millis / millisPerDay)
    let ofDay := (millis % millisPerDay).toNat
    some {
      year, month, day
      hour := ofDay / 3600000
      minute := ofDay / 60000 % 60
      second := ofDay / 1000 % 60
      milli := ofDay % 1000 }
  else
    none

/-- The point in time of a calendar time. -/
def toDateTime (time : CalendarTime) : DateTime :=
  let ofDay :=
    ((time.hour * 60 + time.minute) * 60 + time.second) * 1000 + time.milli
  ⟨Int64.ofInt (daysOfDate time.year time.month time.day * millisPerDay + ofDay)⟩

/-- The year of a calendar time: four digits, with a sign outside 0 to 9999. -/
def displayYear (year : Int) : String :=
  if 0 ≤ year ∧ year ≤ 9999 then
    Numeral.padded 4 year.toNat
  else
    (if year < 0 then "-" else "+") ++ Numeral.padded 4 year.natAbs

/-- A calendar time with its milliseconds, in universal time. -/
def display (time : CalendarTime) : String :=
  displayYear time.year ++ "-" ++ Numeral.padded 2 time.month ++ "-" ++
    Numeral.padded 2 time.day ++ "T" ++ Numeral.padded 2 time.hour ++ ":" ++
    Numeral.padded 2 time.minute ++ ":" ++ Numeral.padded 2 time.second ++ "." ++
    Numeral.padded 3 time.milli ++ "Z"

end CalendarTime

namespace DateTime

/-- The calendar time of a point in time, or its milliseconds outside the calendar. -/
def display (time : DateTime) : String :=
  match CalendarTime.ofDateTime? time with
  | some calendar => calendar.display
  | none => toString time.millis.toInt ++ "ms"

end DateTime

end DocumentCodec
