import Rulebook.Number.Binary64
import Rulebook.Text.Blank

/-!
# Shortest decimal

The decimal with the fewest digits that rounds to a given binary number, and the text written
for it: positional from `0.0001` up to below `10 ^ 16`, with an exponent outside.
-/

namespace Rulebook.Shortest

/-- The positive number `num / den` with the ends `low / den` and `high / den` of the interval
that rounds to it; the ends belong to the interval when `closed`. -/
structure Interval where
  num : Nat
  low : Nat
  high : Nat
  den : Nat
  closed : Bool

/-- The interval of `mantissa · 2 ^ exponent`. Below a power of two the gap is half as wide. -/
def interval (mantissa : Nat) (exponent : Int) : Interval :=
  let scale := if 2 ≤ exponent then Nat.pow 2 (exponent - 2).toNat else 1
  let den := if 2 ≤ exponent then 1 else Nat.pow 2 (2 - exponent).toNat
  let below := if mantissa = Nat.pow 2 52 ∧ exponent ≠ -1074 then 1 else 2
  { num := 4 * mantissa * scale
    low := (4 * mantissa - below) * scale
    high := (4 * mantissa + 2) * scale
    den
    closed := mantissa % 2 == 0 }

/-- Whether `digits · 10 ^ exponent` rounds to the number. -/
def Interval.holds (i : Interval) (digits : Nat) (exponent : Int) : Bool :=
  let value := if 0 ≤ exponent then digits * Nat.pow 10 exponent.toNat * i.den else digits * i.den
  let unit := if 0 ≤ exponent then 1 else Nat.pow 10 (-exponent).toNat
  if i.closed then i.low * unit ≤ value && value ≤ i.high * unit
  else i.low * unit < value && value < i.high * unit

/-- Of the two neighbours of the number on the grid `10 ^ exponent`, the nearer one that rounds
to it; the even one of two equally near. -/
def Interval.onGrid (i : Interval) (exponent : Int) : Option Nat :=
  let num := if 0 ≤ exponent then i.num else i.num * Nat.pow 10 (-exponent).toNat
  let den := if 0 ≤ exponent then i.den * Nat.pow 10 exponent.toNat else i.den
  let below := num / den
  let rest := num % den
  match i.holds below exponent, i.holds (below + 1) exponent with
  | false, false => none
  | true, false => some below
  | false, true => some (below + 1)
  | true, true =>
    some (if 2 * rest < den then below else if den < 2 * rest then below + 1
      else below + below % 2)

/-- The place of the first digit: `10 ^ (place - 1) ≤ num / den < 10 ^ place`. -/
def place (num den : Nat) : Int :=
  let whole := num / den
  if 0 < whole then Binary64.digitCount whole
  else
    let zeros := (List.range 400).find? fun k => den ≤ num * Nat.pow 10 (k + 1)
    Int.neg (zeros.getD 400)

/-- Digits and place of the shortest decimal of `mantissa · 2 ^ exponent`, not zero. -/
def decimal (mantissa : Nat) (exponent : Int) : List Char × Int :=
  let i := interval mantissa exponent
  let first := place i.num i.den
  let found := (List.range 17).findSome? fun k =>
    let grid := first - (k + 1 : Nat)
    (i.onGrid grid).map fun digits => (digits, grid)
  match found with
  | none => (['0'], 1)
  | some (digits, grid) =>
    (Blank.dropEndWhile (· == '0') (Nat.toDigits 10 digits), Binary64.digitCount digits + grid)

/-- An exponent with its sign and at least two digits. -/
def exponentText (e : Int) : List Char :=
  let digits := Nat.toDigits 10 e.natAbs
  (if e < 0 then '-' else '+') :: (List.replicate (2 - digits.length) '0' ++ digits)

/-- Digits `0.d₁d₂… · 10 ^ place`, always with a mark that it is no integer. -/
def layout (digits : List Char) (place : Int) : List Char :=
  if place ≤ -4 || 16 < place then
    let rest := digits.drop 1
    digits.take 1 ++ (if rest.isEmpty then [] else '.' :: rest) ++ 'e' :: exponentText (place - 1)
  else if place ≤ 0 then
    '0' :: '.' :: List.replicate (-place).toNat '0' ++ digits
  else
    let whole := digits.take place.toNat
    let rest := digits.drop place.toNat
    whole ++ List.replicate (place.toNat - digits.length) '0' ++
      '.' :: (if rest.isEmpty then ['0'] else rest)

def text (x : Binary64) : String :=
  match x.form with
  | .nan => "nan"
  | .infinity negative => if negative then "-inf" else "inf"
  | .finite negative mantissa exponent =>
    let sign := if negative then ['-'] else []
    if mantissa = 0 then String.ofList (sign ++ ['0', '.', '0'])
    else
      let (digits, place) := decimal mantissa exponent
      String.ofList (sign ++ layout digits place)

end Rulebook.Shortest
