import MachImage.Text.Basic

/-!
# Dates of log files

A log file is named after the day of its records.  A `Date` is a day of the Gregorian
calendar, carried on before its introduction, in the years that a date of 32 bits can hold.
Years of four digits are written as they are; all others have a sign.
-/

namespace MachImage.Log

def isLeapYear (year : Int) : Bool := year % 4 = 0 && (year % 100 ≠ 0 || year % 400 = 0)

/-- The days of a month, none for a number that is no month. -/
def daysIn (year : Int) (month : Nat) : Nat :=
  if month = 2 then (if isLeapYear year then 29 else 28)
  else if month ∈ [4, 6, 9, 11] then 30
  else if 1 ≤ month ∧ month ≤ 12 then 31
  else 0

/-- A day of the calendar. -/
structure Date where
  year : Int
  month : Nat
  day : Nat
  year_range : -262143 ≤ year ∧ year ≤ 262142
  day_range : 1 ≤ day ∧ day ≤ daysIn year month
  deriving DecidableEq

namespace Date

def of? (year : Int) (month day : Nat) : Option Date :=
  if hy : -262143 ≤ year ∧ year ≤ 262142 then
    if hd : 1 ≤ day ∧ day ≤ daysIn year month then some ⟨year, month, day, hy, hd⟩
    else none
  else none

/-- A number with zeros in front up to `width` digits. -/
def padded (width n : Nat) : String := Text.padLeft '0' width (toString n)

/-- The year, with a sign unless it has the usual four digits. -/
def yearText (year : Int) : String :=
  let digits := padded 4 year.natAbs
  if year < 0 then "-" ++ digits else if year > 9999 then "+" ++ digits else digits

/-- The day as year, month and day of the month. -/
def text (d : Date) : String :=
  yearText d.year ++ "-" ++ padded 2 d.month ++ "-" ++ padded 2 d.day

def logFileName (d : Date) : String := d.text ++ "-machscope.log"

end Date

end MachImage.Log
