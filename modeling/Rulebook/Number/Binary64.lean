/-!
# Binary floating-point numbers

A number of 64 bits as its bit pattern, the exact value it stands for, and the number nearest to
a ratio. All arithmetic is on natural numbers, so equality is decidable and nothing is hidden.
-/

namespace Rulebook

structure Binary64 where
  bits : UInt64
  deriving DecidableEq, Repr, Inhabited

namespace Binary64

/-- What a bit pattern stands for: `± mantissa · 2 ^ exponent` when it is finite. -/
inductive Form where
  | nan
  | infinity (negative : Bool)
  | finite (negative : Bool) (mantissa : Nat) (exponent : Int)
  deriving DecidableEq, Repr

def negative (x : Binary64) : Bool := x.bits.toNat / Nat.pow 2 63 == 1

/-- The bits below the sign: they order numbers of one sign by size. -/
def magnitude (x : Binary64) : Nat := x.bits.toNat % Nat.pow 2 63

def form (x : Binary64) : Form :=
  let biased : Nat := x.bits.toNat / Nat.pow 2 52 % Nat.pow 2 11
  let fraction : Nat := x.bits.toNat % Nat.pow 2 52
  if biased = 2047 then (if fraction = 0 then .infinity x.negative else .nan)
  else if biased = 0 then .finite x.negative fraction (-1074)
  else .finite x.negative (Nat.pow 2 52 + fraction) (biased - 1075)

def ofBits (negative : Bool) (magnitude : Nat) : Binary64 :=
  ⟨UInt64.ofNat (magnitude + if negative then Nat.pow 2 63 else 0)⟩

def zero : Binary64 := ⟨0⟩
def infinity (negative : Bool) : Binary64 := ofBits negative (2047 * Nat.pow 2 52)
def nan : Binary64 := ofBits false (2047 * Nat.pow 2 52 + Nat.pow 2 51)

/-- The integer nearest to `num / den`, of two the even one. -/
def roundHalfEven (num den : Nat) : Nat :=
  let q := num / den
  let twice := 2 * (num % den)
  if twice < den then q else if den < twice then q + 1 else q + q % 2

/-- The floor of the binary logarithm of `num / den`, both positive. -/
def logRatio (num den : Nat) : Int :=
  let k : Int := num.log2 - den.log2
  let reached := if 0 ≤ k then den * Nat.pow 2 k.toNat ≤ num
    else den ≤ num * Nat.pow 2 (-k).toNat
  if reached then k else k - 1

/-- The number nearest to `± num / den`, of two the one with the even mantissa. -/
def ofRatio (negative : Bool) (num den : Nat) : Binary64 :=
  if num = 0 then ofBits negative 0
  else
    let exponent := max (logRatio num den - 52) (-1074)
    if 971 < exponent then infinity negative
    else
      let mantissa := if 0 ≤ exponent then roundHalfEven num (den * Nat.pow 2 exponent.toNat)
        else roundHalfEven (num * Nat.pow 2 (-exponent).toNat) den
      ofBits negative ((exponent + 1074).toNat * Nat.pow 2 52 + mantissa)

def digitCount (n : Nat) : Nat := (Nat.toDigits 10 n).length

/-- The number nearest to `± digits · 10 ^ exponent`. Exponents far outside the range are
decided by the count of digits alone. -/
def ofDecimal (negative : Bool) (digits : Nat) (exponent : Int) : Binary64 :=
  let size := (digitCount digits : Int) + exponent
  if digits = 0 || size < -400 then ofBits negative 0
  else if 400 < size then infinity negative
  else if 0 ≤ exponent then ofRatio negative (digits * Nat.pow 10 exponent.toNat) 1
  else ofRatio negative digits (Nat.pow 10 (-exponent).toNat)

def ofInt (n : Int) : Binary64 := ofRatio (n < 0) n.natAbs 1

/-- The value as an integer, when it is one. -/
def toInt? (x : Binary64) : Option Int :=
  match x.form with
  | .finite negative mantissa exponent =>
    let signed (n : Nat) : Int := if negative then -n else n
    if 0 ≤ exponent then some (signed (mantissa * Nat.pow 2 exponent.toNat))
    else
      let unit := Nat.pow 2 (-exponent).toNat
      if mantissa % unit = 0 then some (signed (mantissa / unit)) else none
  | _ => none

/-- The value without its fraction. -/
def truncate? (x : Binary64) : Option Int :=
  match x.form with
  | .finite negative mantissa exponent =>
    let n := if 0 ≤ exponent then mantissa * Nat.pow 2 exponent.toNat
      else mantissa / Nat.pow 2 (-exponent).toNat
    some (if negative then -n else n)
  | _ => none

def isZero (x : Binary64) : Bool := x.magnitude == 0

def negate (x : Binary64) : Binary64 := ofBits (!x.negative) x.magnitude

/-- `± m · 2 ^ e` as a ratio. -/
def ratio (mantissa : Nat) (exponent : Int) : Nat × Nat :=
  if 0 ≤ exponent then (mantissa * Nat.pow 2 exponent.toNat, 1)
  else (mantissa, Nat.pow 2 (-exponent).toNat)

/-- The number nearest to the product. -/
def mul (x y : Binary64) : Binary64 :=
  let negative := x.negative != y.negative
  match x.form, y.form with
  | .nan, _ | _, .nan => nan
  | .infinity _, _ => if y.isZero then nan else infinity negative
  | _, .infinity _ => if x.isZero then nan else infinity negative
  | .finite _ m e, .finite _ n f =>
    let (num, den) := ratio (m * n) (e + f)
    ofRatio negative num den

/-- The number nearest to the sum. -/
def add (x y : Binary64) : Binary64 :=
  match x.form, y.form with
  | .nan, _ | _, .nan => nan
  | .infinity s, .infinity t => if s = t then x else nan
  | .infinity _, _ => x
  | _, .infinity _ => y
  | .finite s m e, .finite t n f =>
    let least := min e f
    let signed (negative : Bool) (k : Nat) : Int := if negative then -k else k
    let sum := signed s (m * Nat.pow 2 (e - least).toNat) +
      signed t (n * Nat.pow 2 (f - least).toNat)
    let (num, den) := ratio sum.natAbs least
    ofRatio (if sum = 0 then s && t else sum < 0) num den

/-- Whether `x` comes strictly before `y` in numerical order; never so for a NaN. -/
def lt (x y : Binary64) : Bool :=
  let signed (x : Binary64) : Option Int :=
    match x.form with
    | .nan => none
    | _ => some (if x.negative then -x.magnitude else x.magnitude)
  match signed x, signed y with
  | some a, some b => a < b
  | _, _ => false

end Binary64

end Rulebook
