import GalleryCatalog.Calendar.Date
import GalleryCatalog.Text.Digit
import GalleryCatalog.Text.Search

/-!
# Moments

A moment is a date and a time of day, local or with an offset from universal time.
The store keeps universal time without an offset. A local moment counts as
universal; one whose universal date falls outside the years 1 to 9999 has no
stored form.
-/

set_option autoImplicit false

namespace GalleryCatalog.Calendar

structure TimeOfDay where
  hour : Nat
  minute : Nat
  second : Nat
  micro : Nat
  deriving DecidableEq, Repr

/-- `offset` counts microseconds east of universal time. -/
structure Moment where
  date : Date
  time : TimeOfDay
  offset : Option Int := none
  deriving DecidableEq, Repr

def TimeOfDay.valid (t : TimeOfDay) : Bool :=
  t.hour < 24 && t.minute < 60 && t.second < 60 && t.micro < 1000000

def microsPerDay : Nat := 86400000000

def TimeOfDay.micros (t : TimeOfDay) : Nat :=
  ((t.hour * 60 + t.minute) * 60 + t.second) * 1000000 + t.micro

def TimeOfDay.ofMicros (n : Nat) : TimeOfDay :=
  ⟨n / 3600000000, n / 60000000 % 60, n / 1000000 % 60, n % 1000000⟩

/-- Microseconds of universal time since the start of year 1. -/
def Moment.instant (m : Moment) : Int :=
  (m.date.dayNumber * microsPerDay + m.time.micros : Nat) - m.offset.getD 0

/-- The universal moment of an instant. -/
def Moment.ofInstant (n : Nat) : Moment :=
  ⟨Date.ofDayNumber (n / microsPerDay), TimeOfDay.ofMicros (n % microsPerDay), some 0⟩

/-- The first instant after year 9999. -/
def instantLimit : Nat := dayLimit * microsPerDay

/-- The universal moment of the same instant, if the calendar has it. -/
def Moment.universal? (m : Moment) : Option Moment :=
  if 0 ≤ m.instant ∧ m.instant < instantLimit then some (Moment.ofInstant m.instant.toNat)
  else none

/-- What the store holds of a universal moment. -/
def Moment.bare (m : Moment) : Moment :=
  { m with offset := none }

/-- A moment read from the store is universal unless it says otherwise. -/
def Moment.restored (m : Moment) : Moment :=
  { m with offset := some (m.offset.getD 0) }

def padded (width n : Nat) : List Char :=
  let ds := Nat.toDigits 10 n
  List.replicate (width - ds.length) '0' ++ ds

def fractionText (micro : Nat) : List Char :=
  if micro = 0 then [] else '.' :: padded 6 micro

def Date.text (d : Date) : List Char :=
  padded 4 d.year ++ '-' :: padded 2 d.month ++ '-' :: padded 2 d.day

def TimeOfDay.text (t : TimeOfDay) : List Char :=
  padded 2 t.hour ++ ':' :: padded 2 t.minute ++ ':' :: padded 2 t.second ++ fractionText t.micro

/-- Hours and minutes, with seconds only where there are any. -/
def offsetText (offset : Int) : List Char :=
  let t := TimeOfDay.ofMicros offset.natAbs
  (if offset < 0 then '-' else '+') :: padded 2 t.hour ++ ':' :: padded 2 t.minute ++
    if t.second = 0 ∧ t.micro = 0 then []
    else ':' :: padded 2 t.second ++ fractionText t.micro

def Moment.text (between : Char) (m : Moment) : String :=
  String.ofList (m.date.text ++ between :: m.time.text ++ (m.offset.map offsetText).getD [])

/-- A number of exactly `width` ASCII digits, and the rest. -/
def readNumber (width : Nat) (cs : List Char) : Option (Nat × List Char) :=
  let ds := cs.take width
  if ds.length = width ∧ ds.all Text.isAsciiDigit then
    some (Text.asciiNumber ds, cs.drop width)
  else none

def readDate (cs : List Char) : Option (Date × List Char) := do
  let (y, cs) ← readNumber 4 cs
  let cs ← cs.head?.bind fun c => if c = '-' then some cs.tail else none
  let (m, cs) ← readNumber 2 cs
  let cs ← cs.head?.bind fun c => if c = '-' then some cs.tail else none
  let (d, cs) ← readNumber 2 cs
  return (⟨y, m, d⟩, cs)

/-- The digits after a point as microseconds; further digits are dropped. -/
def readFraction : List Char → Option (Nat × List Char)
  | '.' :: cs =>
    let ds := cs.takeWhile Text.isAsciiDigit
    if ds.isEmpty then none
    else some (Text.asciiNumber ((ds ++ List.replicate 6 '0').take 6), cs.dropWhile Text.isAsciiDigit)
  | cs => some (0, cs)

end GalleryCatalog.Calendar
