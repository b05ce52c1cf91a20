import Rulebook.Fault

/-!
# Timestamps

Dates, and dates with a time of day and perhaps an offset from universal time:

    2024-02-03
    2024-2-3 4:05:06.5 +02:00
-/

namespace Rulebook.Yaml

inductive Zone where
  | universal
  | offset (negative : Bool) (hour minute : Nat)
  deriving DecidableEq, Repr

structure TimeOfDay where
  clock : Clock
  zone : Option Zone
  deriving DecidableEq, Repr

/-- A timestamp as written, which need not exist in the calendar. -/
structure Timestamp where
  date : Date
  /-- Month and day have two digits each. -/
  isPadded : Bool
  time : Option TimeOfDay
  deriving DecidableEq, Repr

namespace Timestamp

def number (digits : Text) : Nat := Literal.ofDigits 10 (digits.map fun c => c.toNat - 48)

/-- From `least` to `most` digits at the start of `s`. -/
def digits? (least most : Nat) (s : Text) : Option (Text × Text) :=
  let found := (s.take most).takeWhile Char.isDigit
  if least ≤ found.length then some (found, s.drop found.length) else none

def char? (c : Char) : Text → Option Text
  | d :: s => if c = d then some s else none
  | [] => none

/-- The first six digits of a fraction as a count of millionths. -/
def micros (fraction : Text) : Nat :=
  number (fraction.take 6 ++ List.replicate (6 - fraction.length) '0')

def zone? (s : Text) : Option (Option Zone) :=
  match s, s.dropWhile Blank.isSpaceOrTab with
  | [], _ => some none
  | _, ['Z'] => some (some .universal)
  | _, sign :: s =>
    if sign ≠ '+' && sign ≠ '-' then none
    else do
      let (hour, s) ← digits? 1 2 s
      match s with
      | [] => some (some (.offset (sign = '-') (number hour) 0))
      | _ =>
        let (minute, s) ← digits? 2 2 (← char? ':' s)
        if s.isEmpty then some (some (.offset (sign = '-') (number hour) (number minute))) else none
  | _, [] => none

def time? (s : Text) : Option TimeOfDay := do
  let (hour, s) ← digits? 1 2 s
  let (minute, s) ← digits? 2 2 (← char? ':' s)
  let (second, s) ← digits? 2 2 (← char? ':' s)
  let (fraction, s) := match s with
    | '.' :: s => (s.takeWhile Char.isDigit, s.dropWhile Char.isDigit)
    | s => ([], s)
  some ⟨⟨number hour, number minute, number second, micros fraction⟩, ← zone? s⟩

/-- What stands between the date and the time of day. -/
def afterDate? : Text → Option Text
  | 'T' :: s => some s
  | 't' :: s => some s
  | c :: s => if Blank.isSpaceOrTab c then some (s.dropWhile Blank.isSpaceOrTab) else none
  | [] => none

def read? (s : Text) : Option Timestamp := do
  let (year, s) ← digits? 4 4 s
  let (month, s) ← digits? 1 2 (← char? '-' s)
  let (day, s) ← digits? 1 2 (← char? '-' s)
  let date := Date.mk (number year) (number month) (number day)
  let isPadded := month.length = 2 && day.length = 2
  match s with
  | [] => some ⟨date, isPadded, none⟩
  | _ => some ⟨date, isPadded, some (← time? (← afterDate? s))⟩

def Zone.minutes : Zone → Int
  | .universal => 0
  | .offset negative hour minute =>
    let n : Int := hour * 60 + minute
    if negative then -n else n

/-- The value of a timestamp, if there is such a day and such a time. -/
def value (t : Timestamp) : Except Calendar.Error Value := do
  match t.time with
  | none =>
    Calendar.checkDate t.date
    .ok (.date t.date)
  | some time =>
    let offset := time.zone.map Zone.minutes
    if let some n := offset then Calendar.checkOffset n
    Calendar.checkDate t.date
    Calendar.checkClock time.clock
    .ok (.moment ⟨t.date, time.clock, offset⟩)

end Timestamp

end Rulebook.Yaml
