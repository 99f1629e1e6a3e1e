/-!
# Calendar dates

Dates of the Gregorian calendar from the first day of year 1 on. Days are counted
from that day, which has number zero.
-/

set_option autoImplicit false

namespace GalleryCatalog.Calendar

structure Date where
  year : Nat
  month : Nat
  day : Nat
  deriving DecidableEq, Repr

def isLeap (y : Nat) : Bool :=
  y % 4 == 0 && (y % 100 != 0 || y % 400 == 0)

def daysInMonth (y m : Nat) : Nat :=
  if m = 2 then (if isLeap y then 29 else 28)
  else if m = 4 ∨ m = 6 ∨ m = 9 ∨ m = 11 then 30
  else 31

def Date.valid (d : Date) : Bool :=
  1 ≤ d.year && d.year ≤ 9999 && 1 ≤ d.month && d.month ≤ 12 &&
    1 ≤ d.day && d.day ≤ daysInMonth d.year d.month

/-- Days from the first day of year 1 to the first day of a year. -/
def daysBeforeYear (y : Nat) : Nat :=
  (y - 1) * 365 + (y - 1) / 4 - (y - 1) / 100 + (y - 1) / 400

/-- Days in the first months of a year. -/
def daysInMonths (y : Nat) : Nat → Nat
  | 0 => 0
  | m + 1 => daysInMonths y m + daysInMonth y (m + 1)

def Date.dayNumber (d : Date) : Nat :=
  daysBeforeYear d.year + daysInMonths d.year (d.month - 1) + (d.day - 1)

/-- The year that holds a day. The quotient misses it by one year at most. -/
def yearOfDay (n : Nat) : Nat :=
  let guess := n * 400 / 146097 + 1
  if daysBeforeYear (guess + 1) ≤ n then guess + 1
  else if n < daysBeforeYear guess then guess - 1
  else guess

/-- The month, and the days before it in that month, of the day that comes `n` days
after the first of month `m`. -/
def monthOfDay (y : Nat) : Nat → Nat → Nat → Nat × Nat
  | 0, m, n => (m, n)
  | later + 1, m, n =>
    if n < daysInMonth y m then (m, n)
    else monthOfDay y later (m + 1) (n - daysInMonth y m)

def Date.ofDayNumber (n : Nat) : Date :=
  let y := yearOfDay n
  let place := monthOfDay y 11 1 (n - daysBeforeYear y)
  ⟨y, place.1, place.2 + 1⟩

/-- Days in the years 1 to 9999. -/
def dayLimit : Nat := daysBeforeYear 10000

end GalleryCatalog.Calendar
