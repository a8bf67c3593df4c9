/-! Dates of the proleptic Gregorian calendar and times of day. Year zero and the years before it
exist; the calendar reaches from the first day of year -262143 to the last day of year 262142. -/
namespace DocumentStore.Calendar

structure Date where
  year : Int
  month : Nat
  day : Nat
deriving DecidableEq, Repr

def isLeap (year : Int) : Bool := year % 4 == 0 && (year % 100 != 0 || year % 400 == 0)

def daysInMonth (year : Int) (month : Nat) : Nat :=
  if month = 2 then (if isLeap year then 29 else 28)
  else if month = 4 ∨ month = 6 ∨ month = 9 ∨ month = 11 then 30
  else 31

def firstYear : Int := -262143
def lastYear : Int := 262142

namespace Date

def valid (d : Date) : Bool :=
  decide (firstYear ≤ d.year) && decide (d.year ≤ lastYear)
    && decide (1 ≤ d.month) && decide (d.month ≤ 12)
    && decide (1 ≤ d.day) && decide (d.day ≤ daysInMonth d.year d.month)

def before (a b : Date) : Bool :=
  decide (a.year < b.year) || (decide (a.year = b.year) &&
    (decide (a.month < b.month) || (decide (a.month = b.month) && decide (a.day < b.day))))

def isFirst (d : Date) : Bool := d == ⟨firstYear, 1, 1⟩
def isLast (d : Date) : Bool := d == ⟨lastYear, 12, 31⟩

end Date

/-- Seconds from midnight; a leap second counts as the one before it. -/
def secondOfDay (hour minute second : Nat) : Int := 3600 * hour + 60 * minute + min second 59

end DocumentStore.Calendar
