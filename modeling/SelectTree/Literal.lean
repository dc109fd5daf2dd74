/-
Module: SelectTree.Literal
Purpose: the constants of a query, dates and times included.
Main exports: Literal, Date, Time
-/

namespace SelectTree

/-- A day of the proleptic Gregorian calendar; months and days count from one. -/
structure Date where
  year : Int
  month : Nat
  day : Nat
deriving Repr, Inhabited, DecidableEq

/-- A time of day.  In a leap second the nanoseconds go on beyond the 59th second. -/
structure Time where
  hour : Nat
  minute : Nat
  second : Nat
  nanosecond : Nat
deriving Repr, Inhabited, DecidableEq

/-- A constant. -/
inductive Literal where
  | integer (value : Int)
  /-- A number that is no integer of 63 bits and sign, as written. -/
  | decimal (text : String)
  | string (value : String)
  /-- Written `N'...'`. -/
  | nationalString (value : String)
  /-- Written `{d '...'}`. -/
  | date (value : Date)
  /-- Written `{t '...'}`. -/
  | time (value : Time)
  /-- Written `{ts '...'}`. -/
  | timestamp (date : Date) (time : Time)
deriving Repr, Inhabited, DecidableEq

namespace Date

/-- Every fourth year is a leap year, of the full centuries every fourth. -/
def isLeapYear (year : Int) : Bool :=
  year % 4 == 0 && (year % 100 != 0 || year % 400 == 0)

/-- Number of days of a month. -/
def daysInMonth (year : Int) (month : Nat) : Nat :=
  if month = 2 then (if isLeapYear year then 29 else 28)
  else if month = 4 ∨ month = 6 ∨ month = 9 ∨ month = 11 then 30
  else 31

/-- The earliest and the latest year of the calendar. -/
def yearRange : Int × Int :=
  (-262143, 262142)

/-- The calendar has this day. -/
def exists? (date : Date) : Bool :=
  decide (yearRange.1 ≤ date.year) && decide (date.year ≤ yearRange.2) &&
    decide (1 ≤ date.month) && decide (date.month ≤ 12) &&
    decide (1 ≤ date.day) && decide (date.day ≤ daysInMonth date.year date.month)

end Date

end SelectTree
