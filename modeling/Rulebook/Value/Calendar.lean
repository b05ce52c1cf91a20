/-!
# Calendar values

Dates, times of day and moments with an optional offset from universal time, the conditions
under which they exist, and their texts.
-/

namespace Rulebook

structure Date where
  year : Nat
  month : Nat
  day : Nat
  deriving DecidableEq, Repr

structure Clock where
  hour : Nat
  minute : Nat
  second : Nat
  micro : Nat
  deriving DecidableEq, Repr

/-- A date and time; `offset` counts minutes east of universal time. -/
structure Moment where
  date : Date
  clock : Clock
  offset : Option Int
  deriving DecidableEq, Repr

namespace Calendar

inductive Error where
  | year (year : Nat)
  | month
  | day
  | hour
  | minute
  | second
  | offset (minutes : Int)
  deriving DecidableEq, Repr

def isLeap (year : Nat) : Bool := year % 4 == 0 && (year % 100 != 0 || year % 400 == 0)

def daysIn (year month : Nat) : Nat :=
  if month = 2 then (if isLeap year then 29 else 28)
  else if month = 4 ∨ month = 6 ∨ month = 9 ∨ month = 11 then 30
  else 31

def checkDate (d : Date) : Except Error Unit :=
  if d.year = 0 || 9999 < d.year then .error (.year d.year)
  else if d.month = 0 || 12 < d.month then .error .month
  else if d.day = 0 || daysIn d.year d.month < d.day then .error .day
  else .ok ()

def checkClock (c : Clock) : Except Error Unit :=
  if 23 < c.hour then .error .hour
  else if 59 < c.minute then .error .minute
  else if 59 < c.second then .error .second
  else .ok ()

/-- The days from the last one before the first year up to `d`. -/
def dayNumber (d : Date) : Nat :=
  let years := d.year - 1
  365 * years + years / 4 - years / 100 + years / 400 +
    (List.range (d.month - 1)).foldl (fun days m => days + daysIn d.year (m + 1)) 0 + d.day

/-- An offset stays below a day either way. -/
def checkOffset (minutes : Int) : Except Error Unit :=
  if minutes.natAbs < 24 * 60 then .ok () else .error (.offset minutes)

def digits (width n : Nat) : String :=
  let text := Nat.toDigits 10 n
  String.ofList (List.replicate (width - text.length) '0' ++ text)

/-- A span of minutes as days and the seconds that are left, which are never negative. -/
def spanText (minutes : Int) : String :=
  let days := Int.fdiv minutes (24 * 60)
  let seconds := Int.fmod minutes (24 * 60) * 60
  let parts := (if days = 0 then [] else [s!"days={days}"]) ++
    (if seconds = 0 then [] else [s!"seconds={seconds}"])
  "datetime.timedelta(" ++ (if parts.isEmpty then "0" else ", ".intercalate parts) ++ ")"

def Error.message : Error → String
  | .year y => s!"year {y} is out of range"
  | .month => "month must be in 1..12"
  | .day => "day is out of range for month"
  | .hour => "hour must be in 0..23"
  | .minute => "minute must be in 0..59"
  | .second => "second must be in 0..59"
  | .offset n =>
    "offset must be a timedelta strictly between -timedelta(hours=24) and " ++
      s!"timedelta(hours=24), not {spanText n}."

end Calendar

open Calendar

/-- The millionths of a second from the start of the calendar, in universal time if the offset is
known. -/
def Moment.instant (m : Moment) : Int :=
  let minutes : Int := (dayNumber m.date * 24 + m.clock.hour) * 60 + m.clock.minute
  ((minutes - m.offset.getD 0) * 60 + m.clock.second) * 1000000 + m.clock.micro

def Date.text (d : Date) : String := s!"{digits 4 d.year}-{digits 2 d.month}-{digits 2 d.day}"

def Clock.text (c : Clock) : String :=
  let whole := s!"{digits 2 c.hour}:{digits 2 c.minute}:{digits 2 c.second}"
  if c.micro = 0 then whole else s!"{whole}.{digits 6 c.micro}"

def Calendar.offsetText (minutes : Int) : String :=
  let sign := if minutes < 0 then "-" else "+"
  s!"{sign}{digits 2 (minutes.natAbs / 60)}:{digits 2 (minutes.natAbs % 60)}"

/-- Date and time with `separator` between them. -/
def Moment.text (separator : String) (m : Moment) : String :=
  m.date.text ++ separator ++ m.clock.text ++ (m.offset.map offsetText).getD ""

/-- Hours and minutes always, seconds and their fraction only down to the last that is not zero. -/
def Clock.shownParts (c : Clock) : List Nat :=
  [c.hour, c.minute] ++
    (if c.micro ≠ 0 then [c.second, c.micro] else if c.second ≠ 0 then [c.second] else [])

def Calendar.offsetShown (minutes : Int) : String :=
  if minutes = 0 then "datetime.timezone.utc" else s!"datetime.timezone({spanText minutes})"

def Date.shown (d : Date) : String := s!"datetime.date({d.year}, {d.month}, {d.day})"

def Clock.shown (c : Clock) : String :=
  "datetime.time(" ++ ", ".intercalate (c.shownParts.map toString) ++ ")"

def Moment.shown (m : Moment) : String :=
  let parts := ([m.date.year, m.date.month, m.date.day] ++ m.clock.shownParts).map toString ++
    (m.offset.map fun o => "tzinfo=" ++ offsetShown o).toList
  "datetime.datetime(" ++ ", ".intercalate parts ++ ")"

end Rulebook
