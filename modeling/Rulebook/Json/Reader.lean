import Rulebook.Number.Literal
import Rulebook.Value.Basic

/-!
# Reading JSON

JSON text with the common leniences: `NaN`, `Infinity` and `-Infinity` are numbers, the last of
several equal keys wins, and integers have no bound but the length of their numeral.
-/

namespace Rulebook.Json

inductive Error where
  | malformed
  | numeral (e : Literal.Error)
  deriving DecidableEq, Repr

def isSpace (c : Char) : Bool := c == ' ' || c == '\t' || c == '\n' || c == '\r'

def skipSpace (s : Text) : Text := s.dropWhile isSpace

def isHighSurrogate (n : Nat) : Bool := 0xD800 ≤ n && n < 0xDC00
def isLowSurrogate (n : Nat) : Bool := 0xDC00 ≤ n && n < 0xE000

/-- The character of a code unit; a surrogate on its own stands for none. -/
def unitChar (n : Nat) : Char :=
  if isHighSurrogate n || isLowSurrogate n then '\uFFFD' else Char.ofNat n

def pairChar (high low : Nat) : Char :=
  Char.ofNat (0x10000 + (high - 0xD800) * 0x400 + (low - 0xDC00))

def simpleEscape? : Char → Option Char
  | '"' => some '"'
  | '\\' => some '\\'
  | '/' => some '/'
  | 'b' => some '\x08'
  | 'f' => some '\x0C'
  | 'n' => some '\n'
  | 'r' => some '\r'
  | 't' => some '\t'
  | _ => none

/-- The character that an escape writes, given what follows its backslash, and the rest. Two
escaped surrogates that form a pair write one character. -/
def escape? : Text → Option (Char × Text)
  | 'u' :: a :: b :: c :: d :: s => do
    let n ← Digit.hexNumber? [a, b, c, d]
    match s with
    | '\\' :: 'u' :: e :: f :: g :: h :: t =>
      let m ← Digit.hexNumber? [e, f, g, h]
      if isHighSurrogate n && isLowSurrogate m then some (pairChar n m, t)
      else some (unitChar n, s)
    | s => some (unitChar n, s)
  | c :: s => (simpleEscape? c).map fun e => (e, s)
  | [] => none

/-- The rest of a string literal after its opening quote, and what follows its closing one. Each
step of `fuel` spends a character. -/
def stringBody (fuel : Nat) (done : Text) (s : Text) : Option (Text × Text) :=
  match fuel, s with
  | 0, _ | _, [] => none
  | _, '"' :: s => some (done.reverse, s)
  | fuel + 1, '\\' :: s => do
    let (c, r) ← escape? s
    stringBody fuel (c :: done) r
  | fuel + 1, c :: s => if c.toNat < 0x20 then none else stringBody fuel (c :: done) s

/-- A string literal after its opening quote. -/
def stringRest (s : Text) : Option (Text × Text) := stringBody s.length [] s

/-- A number as written: sign, whole digits, fraction and exponent digits. -/
structure Numeral where
  negative : Bool
  whole : Text
  fraction : Text
  exponent : Option (Bool × Text)

def fractionPart (s : Text) : Text × Text :=
  match s with
  | '.' :: r =>
    let digits := r.takeWhile Digit.isAscii
    if digits.isEmpty then ([], s) else (digits, r.drop digits.length)
  | _ => ([], s)

def exponentPart (s : Text) : Option (Bool × Text) × Text :=
  match s with
  | c :: r =>
    if c = 'e' || c = 'E' then
      let (down, r) := Literal.splitSign r
      let digits := r.takeWhile Digit.isAscii
      if digits.isEmpty then (none, s) else (some (down, digits), r.drop digits.length)
    else (none, s)
  | [] => (none, s)

/-- The longest number at the start of `s`. -/
def numeral? (s : Text) : Option (Numeral × Text) :=
  let (negative, body) := match s with
    | '-' :: r => (true, r)
    | r => (false, r)
  let whole := match body with
    | '0' :: _ => ['0']
    | r => r.takeWhile Digit.isAscii
  if whole.isEmpty then none
  else
    let (fraction, r) := fractionPart (body.drop whole.length)
    let (exponent, r) := exponentPart r
    some (⟨negative, whole, fraction, exponent⟩, r)

def digitsValue (digits : Text) : Nat :=
  digits.foldl (fun n c => 10 * n + (c.toNat - '0'.toNat)) 0

def Numeral.value (n : Numeral) : Except Error Value :=
  if n.fraction.isEmpty && n.exponent.isNone then
    if Literal.digitLimit < n.whole.length then
      .error (.numeral (.tooManyDigits n.whole.length))
    else
      let m := digitsValue n.whole
      .ok (.int (if n.negative then -m else m))
  else
    let exponent : Int := match n.exponent with
      | none => 0
      | some (down, digits) => if down then -digitsValue digits else digitsValue digits
    .ok (.float (Binary64.ofDecimal n.negative (digitsValue (n.whole ++ n.fraction))
      (exponent - n.fraction.length)))

/-- The words that stand for a value, with what they stand for. -/
def words : List (Text × Value) :=
  [("null".toList, .null), ("true".toList, .bool true), ("false".toList, .bool false),
    ("NaN".toList, .float Binary64.nan), ("Infinity".toList, .float (Binary64.infinity false)),
    ("-Infinity".toList, .float (Binary64.infinity true))]

def word? (s : Text) : Option (Value × Text) :=
  words.findSome? fun (w, v) => if w.isPrefixOf s then some (v, s.drop w.length) else none

mutual

/-- A value at the start of the text, with what follows it. Each step of `fuel` spends at least
one character, so the length of the text is enough. -/
def value : Nat → Text → Except Error (Value × Text)
  | 0, _ => .error .malformed
  | fuel + 1, s =>
    match s with
    | '"' :: r =>
      match stringRest r with
      | some (text, r) => .ok (.str (String.ofList text), r)
      | none => .error .malformed
    | '[' :: r =>
      match skipSpace r with
      | ']' :: r => .ok (.list [], r)
      | r => items fuel [] r
    | '\x7b' :: r =>
      match skipSpace r with
      | '\x7d' :: r => .ok (.map [], r)
      | r => members fuel [] r
    | s =>
      match word? s with
      | some found => .ok found
      | none =>
        match numeral? s with
        | some (n, r) => n.value.map fun v => (v, r)
        | none => .error .malformed

def items : Nat → List Value → Text → Except Error (Value × Text)
  | 0, _, _ => .error .malformed
  | fuel + 1, done, s => do
    let (v, r) ← value fuel s
    match skipSpace r with
    | ',' :: r => items fuel (v :: done) (skipSpace r)
    | ']' :: r => .ok (.list (v :: done).reverse, r)
    | _ => .error .malformed

def members : Nat → Entries → Text → Except Error (Value × Text)
  | 0, _, _ => .error .malformed
  | fuel + 1, done, s =>
    match s with
    | '"' :: r =>
      match stringRest r with
      | none => .error .malformed
      | some (key, r) =>
        match skipSpace r with
        | ':' :: r => do
          let (v, r) ← value fuel (skipSpace r)
          let done := Entries.insert done (.str (String.ofList key)) v
          match skipSpace r with
          | ',' :: r => members fuel done (skipSpace r)
          | '\x7d' :: r => .ok (.map done, r)
          | _ => .error .malformed
        | _ => .error .malformed
    | _ => .error .malformed

end

def read (s : Text) : Except Error Value := do
  let (v, r) ← value (s.length + 1) (skipSpace s)
  if (skipSpace r).isEmpty then .ok v else .error .malformed

def Error.message : Error → String
  | .malformed => "malformed document"
  | .numeral e => e.message

end Rulebook.Json
