import GalleryCatalog.Calendar.Moment
import GalleryCatalog.Text.Quoted

/-!
# Written moments

A moment is written as a date, any one character, and a time of day, which may be
left out together with that character. The date is one of the calendar or one of
weeks, with hyphens or without. The time has one to three parts of two digits, with
colons or without, and a fraction. An offset follows behind a sign, or a `Z` stands
for none. What stands between a time and its offset and cannot be read is passed over.
-/

set_option autoImplicit false

namespace GalleryCatalog.Calendar

inductive MomentFault where
  | malformed (text : String)
  | year (y : Nat)
  | month
  | day
  | hour
  | minute
  | second
  | offset (micros : Int)
  deriving DecidableEq, Repr

/-- The parts of a span of time that are not zero. Only its days may be negative. -/
def spanParts (micros : Int) : List String :=
  let seconds := micros.fdiv 1000000
  let parts := [("days", seconds.fdiv 86400), ("seconds", seconds.fmod 86400),
    ("microseconds", micros.fmod 1000000)]
  (parts.filter fun part => part.2 ≠ 0).map fun part => part.1 ++ "=" ++ toString part.2

def spanText (micros : Int) : String :=
  "datetime.timedelta(" ++ ", ".intercalate (spanParts micros) ++ ")"

def MomentFault.message : MomentFault → String
  | .malformed text => "Invalid isoformat string: " ++ Text.quote text
  | .year y => "year " ++ toString y ++ " is out of range"
  | .month => "month must be in 1..12"
  | .day => "day is out of range for month"
  | .hour => "hour must be in 0..23"
  | .minute => "minute must be in 0..59"
  | .second => "second must be in 0..59"
  | .offset micros =>
    "offset must be a timedelta strictly between -timedelta(hours=24) and " ++
      "timedelta(hours=24), not " ++ spanText micros ++ "."

/-- The number of the first day of the first week of a year, which holds its first
Thursday. -/
def firstMonday (y : Nat) : Nat :=
  let first := daysBeforeYear y
  let weekday := first % 7
  if 3 < weekday then first - weekday + 7 else first - weekday

/-- A year has 53 weeks if it starts on a Thursday, or on a Wednesday and is a leap
year. -/
def weeksInYear (y : Nat) : Nat :=
  let weekday := daysBeforeYear y % 7
  if weekday = 3 ∨ (weekday = 2 ∧ isLeap y) then 53 else 52

/-- The date of a day of a week. In the year zero, which the calendar does not have, days
lie in no month. -/
def Date.ofWeek? (y week day : Nat) : Option Date :=
  if week < 1 ∨ weeksInYear y < week ∨ day < 1 ∨ 7 < day then none
  else if y = 0 then some ⟨1, 0, day⟩
  else some (Date.ofDayNumber (firstMonday y + (week - 1) * 7 + (day - 1)))

namespace Written

/-- A date of weeks without hyphens has seven characters or, with a day, eight. Where
digits follow, their number decides, for those of a time come in pairs. -/
def plainWeekLength (cs : List Char) : Nat :=
  let digits := ((cs.drop 7).takeWhile Text.isAsciiDigit).length
  if digits < 2 then 7 + digits
  else if digits % 2 = 1 then 7
  else 8

/-- A date of weeks with hyphens has eight characters or, with a day, ten. A digit
behind the place of the day makes that place part of a time. -/
def weekLength (cs : List Char) : Nat :=
  match cs.drop 8 with
  | '-' :: _ :: c :: _ => if Text.isAsciiDigit c then 8 else 10
  | '-' :: _ => 10
  | _ => 8

/-- The number of characters of the date at the start of a text. -/
def dateLength (cs : List Char) : Nat :=
  if cs.length = 7 then 7
  else match cs.drop 4 with
    | '-' :: 'W' :: _ => weekLength cs
    | '-' :: _ => 10
    | 'W' :: _ => plainWeekLength cs
    | _ => 8

/-- Drop a hyphen that must be there if there are hyphens. -/
def passHyphen (hyphens : Bool) : List Char → Option (List Char)
  | '-' :: cs => if hyphens then some cs else none
  | cs => if hyphens then none else some cs

/-- A week, and a day that is the first one if it is left out. -/
def weekDate (y : Nat) (hyphens : Bool) (cs : List Char) : Option Date := do
  let (week, cs) ← readNumber 2 cs
  if cs = [] then Date.ofWeek? y week 1
  else
    let (day, _) ← readNumber 1 (← passHyphen hyphens cs)
    Date.ofWeek? y week day

/-- A date, which need not be one of the calendar. -/
def date? (cs : List Char) : Option Date := do
  let (y, cs) ← readNumber 4 cs
  let hyphens := cs.head? == some '-'
  let cs ← passHyphen hyphens cs
  match cs with
  | 'W' :: cs => weekDate y hyphens cs
  | cs =>
    let (m, cs) ← readNumber 2 cs
    let (d, _) ← readNumber 2 (← passHyphen hyphens cs)
    return ⟨y, m, d⟩

/-- Parts of a time of day, which need not be within their limits, and what cannot be
read behind them. -/
structure Clock where
  parts : List Nat := []
  micro : Nat := 0
  rest : List Char := []
  deriving DecidableEq, Repr

/-- Six digits of a fraction, or fewer at the end. Further digits are dropped. -/
def fraction (cs : List Char) : Option Clock :=
  let ds := cs.take 6
  if ds.all Text.isAsciiDigit then
    some {
      micro := Text.asciiNumber (ds ++ List.replicate (6 - ds.length) '0')
      rest := (cs.drop 6).dropWhile Text.isAsciiDigit }
  else none

/-- Read up to so many parts, then a fraction. The character behind the first part says
whether there are colons. Where only one byte is left it is not read. -/
def parts : Nat → Option Bool → List Char → Option Clock
  | 0, _, cs => fraction cs
  | k + 1, colons, cs => do
    let (n, cs) ← readNumber 2 cs
    match cs with
    | [] => return { parts := [n] }
    | c :: cs =>
      let colons := colons.getD (c == ':')
      if cs = [] ∧ c.utf8Size = 1 then return { parts := [n], rest := [c] }
      else
        let later ←
          if c = ':' ∧ colons then parts k (some colons) cs
          else if c = '.' ∨ c = ',' then fraction cs
          else if colons then none
          else parts k (some colons) (c :: cs)
        return { later with parts := n :: later.parts }

def Clock.time (c : Clock) : TimeOfDay :=
  ⟨c.parts.getD 0 0, c.parts.getD 1 0, c.parts.getD 2 0, c.micro⟩

/-- Nothing is left, or what is left starts with the character zero. -/
def isEnd (cs : List Char) : Bool :=
  cs.head?.all (· == '\x00')

def isOffsetSign (c : Char) : Bool :=
  c == '+' || c == '-' || c == 'Z'

/-- Less than a second does not make an offset. -/
def signedMicros (negative : Bool) (t : TimeOfDay) : Int :=
  if t.micros < 1000000 then 0 else if negative then -t.micros else t.micros

/-- The offset behind a time, if there is one. -/
def offset? : List Char → Option (Option Int)
  | [] => some none
  | 'Z' :: cs => if isEnd cs then some (some 0) else none
  | sign :: cs => do
    let clock ← parts 3 none cs
    if isEnd clock.rest then some (some (signedMicros (sign == '-') clock.time)) else none

/-- A time of day and its offset. -/
def time? (cs : List Char) : Option (TimeOfDay × Option Int) := do
  let later := cs.dropWhile (!isOffsetSign ·)
  let clock ← parts 3 none (cs.takeWhile (!isOffsetSign ·))
  let offset ← offset? later
  if later = [] ∧ ¬ isEnd clock.rest then none else some (clock.time, offset)

/-- A moment whose parts need not be within their limits. -/
def moment? (cs : List Char) : Option Moment := do
  if cs.length < 7 then none
  let date ← date? (cs.take (dateLength cs))
  match cs.drop (dateLength cs) with
  | [] => return ⟨date, ⟨0, 0, 0, 0⟩, none⟩
  | _ :: cs =>
    let (time, offset) ← time? cs
    return ⟨date, time, offset⟩

end Written

/-- The first part of a moment that is out of its limits. Offsets are shorter than a
day. -/
def Moment.fault? (m : Moment) : Option MomentFault :=
  let offset := m.offset.getD 0
  if microsPerDay ≤ offset.natAbs then some (.offset offset)
  else if m.date.year < 1 ∨ 9999 < m.date.year then some (.year m.date.year)
  else if m.date.month < 1 ∨ 12 < m.date.month then some .month
  else if ¬ m.date.valid then some .day
  else if 24 ≤ m.time.hour then some .hour
  else if 60 ≤ m.time.minute then some .minute
  else if 60 ≤ m.time.second then some .second
  else none

/-- Read a moment. -/
def Moment.read (s : String) : Except MomentFault Moment :=
  match Written.moment? s.toList with
  | none => .error (.malformed s)
  | some m =>
    match m.fault? with
    | some fault => .error fault
    | none => .ok m

end GalleryCatalog.Calendar
