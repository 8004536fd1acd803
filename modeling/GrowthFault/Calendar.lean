import GrowthFault.Decimal.Digits

/-!
# Calendar

Days are counted from 1970-01-01 in the Gregorian calendar, extended both ways.  A timestamp is
the date and the time of day in UTC, with milliseconds.
-/

namespace GrowthFault

structure Date where
  year : Int
  month : Nat
  day : Nat
  deriving DecidableEq, Repr

namespace Calendar

def eraDays : Nat := 146097

def epochShift : Int := 719468

/-- The year of an era, counted from March, that a day of the era lies in. -/
def yearOfEra (day : Nat) : Nat :=
  (day - day / 1460 + day / 36524 - day / 146096) / 365

/-- The day of the year, counted from March, of a day of an era. -/
def dayOfYear (day : Nat) : Nat :=
  let year := yearOfEra day
  day - (365 * year + year / 4 - year / 100)

/-- The month, counted from March, that a day of such a year lies in. -/
def monthFromMarch (dayOfYear : Nat) : Nat :=
  (5 * dayOfYear + 2) / 153

def date (days : Int) : Date :=
  let shifted := days + epochShift
  let era := shifted / eraDays
  let day := (shifted % eraDays).toNat
  let inYear := dayOfYear day
  let march := monthFromMarch inYear
  let month := if march < 10 then march + 3 else march - 9
  { year := yearOfEra day + era * 400 + (if month ≤ 2 then 1 else 0)
    month
    day := inYear - (153 * march + 2) / 5 + 1 }

end Calendar

/-- A reading of the clock: seconds since the epoch and nanoseconds of the second. -/
structure Instant where
  seconds : Int
  nanoseconds : Nat
  deriving DecidableEq, Repr

/-- What the clock shows, reading by reading. -/
abbrev Clock := Nat → Instant

namespace Instant

def epoch : Instant := ⟨0, 0⟩

/-- The reading, or the epoch if it lies before it. -/
def sinceEpoch (t : Instant) : Instant :=
  if t.seconds < 0 then epoch else t

def daySeconds : Nat := 86400

def yearText (year : Int) : List Char :=
  if year < 0 then '-' :: Decimal.padded 3 year.natAbs else Decimal.padded 4 year.toNat

def timestamp (t : Instant) : String :=
  let t := t.sinceEpoch
  let seconds := t.seconds.toNat
  let date := Calendar.date (seconds / daySeconds : Nat)
  let time := seconds % daySeconds
  String.ofList <|
    yearText date.year ++ '-' :: Decimal.padded 2 date.month ++ '-' :: Decimal.padded 2 date.day
    ++ 'T' :: Decimal.padded 2 (time / 3600) ++ ':' :: Decimal.padded 2 (time % 3600 / 60)
    ++ ':' :: Decimal.padded 2 (time % 60)
    ++ '.' :: Decimal.padded 3 (t.nanoseconds / 1000000) ++ ['Z']

end Instant

end GrowthFault
