import Rulebook.Number.Binary64
import Rulebook.Text.Blank
import Rulebook.Text.Digit
import Rulebook.Text.LowerCase
import Rulebook.Text.Quoted

/-!
# Numerals

Reading integers and floating-point numbers as text writes them: blanks around are ignored,
decimal digits of any script count, and single underscores may stand between digits. Integers with
very many decimal digits are neither read nor written.
-/

namespace Rulebook.Literal

inductive Error where
  | integer (base : Nat) (text : String)
  | tooManyDigits (count : Nat)
  /-- An integer has too many digits to be written. -/
  | unwritable
  | number (text : String)
  deriving DecidableEq, Repr

/-- A decimal numeral longer than this is refused unread, and no integer is written as one. -/
def digitLimit : Nat := 4300

def isWritable (n : Int) : Bool := (Nat.toDigits 10 n.natAbs).length ≤ digitLimit

def Error.message : Error → String
  | .integer base text => s!"invalid literal for int() with base {base}: {Quoted.text text}"
  | .tooManyDigits count =>
    s!"Exceeds the limit ({digitLimit} digits) for integer string conversion: value has {count} " ++
      "digits; use sys.set_int_max_str_digits() to increase the limit"
  | .unwritable =>
    s!"Exceeds the limit ({digitLimit} digits) for integer string conversion; " ++
      "use sys.set_int_max_str_digits() to increase the limit"
  | .number text => s!"could not convert string to float: {Quoted.text text}"

/-- The digit values of a numeral, with single underscores allowed between digits. -/
def digits? (value? : Char → Option Nat) : Text → Option (List Nat)
  | [] => none
  | c :: s => do
    let d ← value? c
    match s with
    | [] => some [d]
    | '_' :: s => (d :: ·) <$> digits? value? s
    | c :: s => (d :: ·) <$> digits? value? (c :: s)

def ofDigits (base : Nat) (digits : List Nat) : Nat := digits.foldl (fun n d => base * n + d) 0

/-- Whether a sign makes the numeral negative, and the text after the sign. -/
def splitSign : Text → Bool × Text
  | '-' :: s => (true, s)
  | '+' :: s => (false, s)
  | s => (false, s)

def digitOf (base : Nat) (c : Char) : Option Nat :=
  (Digit.decimal? c <|> Digit.hex? c).filter (· < base)

/-- The letter that may announce a base after a zero. -/
def mark? : Nat → Option Char
  | 2 => some 'b'
  | 8 => some 'o'
  | 16 => some 'x'
  | _ => none

/-- Drops the announcement of the base, as in `0x`. -/
def withoutMark (base : Nat) (s : Text) : Text :=
  match s with
  | '0' :: c :: rest =>
    if mark? base = some (LowerCase.asciiChar c) then
      match rest with
      | '_' :: rest => rest
      | rest => rest
    else s
  | s => s

def integer (base : Nat) (s : Text) : Except Error Int :=
  let (negative, body) := splitSign (Blank.trim s)
  match digits? (digitOf base) (withoutMark base body) with
  | none => .error (.integer base (String.ofList s))
  | some digits =>
    if base = 10 && digitLimit < digits.length then .error (.tooManyDigits digits.length)
    else
      let n := ofDigits base digits
      .ok (if negative then -n else n)

/-- The text before and after the first character on which `p` holds. -/
def cut (p : Char → Bool) (s : Text) : Text × Option Text :=
  match s.dropWhile (!p ·) with
  | [] => (s, none)
  | _ :: rest => (s.takeWhile (!p ·), some rest)

/-- Digits that may be absent. -/
def optionalDigits? (s : Text) : Option (List Nat) :=
  if s.isEmpty then some [] else digits? Digit.decimal? s

/-- `whole [. fraction] [e exponent]` with a digit on either side of the point. -/
def decimal? (negative : Bool) (s : Text) : Option Binary64 := do
  let (mantissa, exponent) := cut (fun c => c == 'e' || c == 'E') s
  let (whole, fraction) := cut (· == '.') mantissa
  let whole ← optionalDigits? whole
  let fraction ← optionalDigits? (fraction.getD [])
  if whole.isEmpty && fraction.isEmpty then none
  else
    let exponent ← match exponent with
      | none => some (0 : Int)
      | some e =>
        let (down, e) := splitSign e
        (digits? Digit.decimal? e).map fun ds => if down then -(ofDigits 10 ds) else ofDigits 10 ds
    some (Binary64.ofDecimal negative (ofDigits 10 (whole ++ fraction))
      (exponent - fraction.length))

def number (s : Text) : Except Error Binary64 :=
  let (negative, body) := splitSign (Blank.trim s)
  let word := String.ofList (body.map LowerCase.asciiChar)
  if word = "inf" || word = "infinity" then .ok (Binary64.infinity negative)
  else if word = "nan" then .ok Binary64.nan
  else match decimal? negative body with
    | some x => .ok x
    | none => .error (.number (String.ofList s))

end Rulebook.Literal
