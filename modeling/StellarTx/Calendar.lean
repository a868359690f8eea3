/-
# Dates

The proleptic Gregorian calendar in UTC, for seconds counted from the start of 1970.  A date is
written as `2018-08-31T23:04:32Z`; a year above 9999 takes a plus sign.
-/
import StellarTx.Text.Decimal

namespace StellarTx.Calendar

/-- A day of the calendar. -/
structure Date where
  year : Nat
  month : Nat
  day : Nat
  deriving DecidableEq, Repr

/-- The date that is a number of days after 1 January 1970.  Years are counted from March, so that
the leap day is the last day of a year, and in groups of four hundred, which all have the same
length. -/
def ofDays (days : Nat) : Date :=
  let shifted := days + 719468
  let era := shifted / 146097
  let dayOfEra := shifted % 146097
  let yearOfEra :=
    (dayOfEra - dayOfEra / 1460 + dayOfEra / 36524 - dayOfEra / 146096) / 365
  let dayOfYear := dayOfEra - (365 * yearOfEra + yearOfEra / 4 - yearOfEra / 100)
  let monthFromMarch := (5 * dayOfYear + 2) / 153
  let day := dayOfYear - (153 * monthFromMarch + 2) / 5 + 1
  let month := if monthFromMarch < 10 then monthFromMarch + 3 else monthFromMarch - 9
  ⟨era * 400 + yearOfEra + (if month ≤ 2 then 1 else 0), month, day⟩

/-- A number in at least `width` digits. -/
def fixedWidth (width n : Nat) : String :=
  let digits := Text.Decimal.digits n
  String.ofList (List.replicate (width - digits.length) '0' ++ digits)

/-- The year of a date. -/
def yearText (year : Nat) : String :=
  if year ≤ 9999 then fixedWidth 4 year else "+" ++ fixedWidth 4 year

/-- The last second of the last year that can be written, 262142. -/
def lastSecond : Nat := 8210266876799

/-- A date. -/
def Date.text (date : Date) : String :=
  yearText date.year ++ "-" ++ fixedWidth 2 date.month ++ "-" ++ fixedWidth 2 date.day

/-- A number of seconds below a day as hours, minutes and seconds. -/
def clockText (time : Nat) : String :=
  fixedWidth 2 (time / 3600) ++ ":" ++ fixedWidth 2 (time / 60 % 60) ++ ":" ++
    fixedWidth 2 (time % 60)

/-- The date and time of a number of seconds. -/
def timestampText (seconds : Nat) : String :=
  (ofDays (seconds / 86400)).text ++ "T" ++ clockText (seconds % 86400) ++ "Z"

/-- The date and time of a number of seconds, unless it is zero or beyond the last year. -/
def timestampText? (seconds : Nat) : Option String :=
  if seconds = 0 ∨ lastSecond < seconds then none else some (timestampText seconds)

end StellarTx.Calendar
