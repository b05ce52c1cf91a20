import Rulebook.Text.Printable

/-!
# Quoted text

The form in which messages show a piece of text: in single quotes, or in double quotes when it
holds a single quote and no double one, with everything unprintable escaped.
-/

namespace Rulebook.Quoted

/-- `n` in hexadecimal, with at least `width` digits. -/
def hex (width n : Nat) : List Char :=
  let digits := Nat.toDigits 16 n
  List.replicate (width - digits.length) '0' ++ digits

/-- Two, four or eight hexadecimal digits, as few as the code point allows. -/
def codeEscape (c : Char) : List Char :=
  let n := c.toNat
  if n ≤ 0xFF then '\\' :: 'x' :: hex 2 n
  else if n ≤ 0xFFFF then '\\' :: 'u' :: hex 4 n
  else '\\' :: 'U' :: hex 8 n

def escape (quote c : Char) : List Char :=
  if c = quote || c = '\\' then ['\\', c]
  else if c = '\n' then ['\\', 'n']
  else if c = '\r' then ['\\', 'r']
  else if c = '\t' then ['\\', 't']
  else if Printable.isPrintable c then [c]
  else codeEscape c

def quoteFor (s : List Char) : Char := if s.contains '\'' && !s.contains '"' then '"' else '\''

def encode (s : List Char) : List Char :=
  let quote := quoteFor s
  quote :: s.flatMap (escape quote) ++ [quote]

def text (s : String) : String := String.ofList (encode s.toList)

/-- Bytes in the same manner: two hexadecimal digits outside printable ASCII, after a `b`. -/
def bytes (data : List UInt8) : String :=
  let chars := data.map fun b => Char.ofNat b.toNat
  let quote := quoteFor chars
  let one (c : Char) : List Char :=
    if c = quote || c = '\\' then ['\\', c]
    else if c = '\n' then ['\\', 'n']
    else if c = '\r' then ['\\', 'r']
    else if c = '\t' then ['\\', 't']
    else if ' ' ≤ c && c ≤ '~' then [c]
    else '\\' :: 'x' :: hex 2 c.toNat
  String.ofList ('b' :: quote :: chars.flatMap one ++ [quote])

end Rulebook.Quoted
