import Rulebook.Number.Literal
import Rulebook.Text.Digit
import Rulebook.Value.Display

/-!
# Writing JSON

Two layouts in plain ASCII: one line with sorted keys, for comparing values, and an indented one
in the order of the entries, for output.
-/

namespace Rulebook.Json

/-- Four hexadecimal digits after `\u`. -/
def unitEscape (n : Nat) : List Char := '\\' :: 'u' :: Quoted.hex 4 n

def escapeChar (c : Char) : List Char :=
  if c = '"' then ['\\', '"']
  else if c = '\\' then ['\\', '\\']
  else if c = '\n' then ['\\', 'n']
  else if c = '\r' then ['\\', 'r']
  else if c = '\t' then ['\\', 't']
  else if c = '\x08' then ['\\', 'b']
  else if c = '\x0C' then ['\\', 'f']
  else if ' ' ≤ c && c ≤ '~' then [c]
  else if c.toNat ≤ 0xFFFF then unitEscape c.toNat
  else
    let n := c.toNat - 0x10000
    unitEscape (0xD800 + n / 0x400) ++ unitEscape (0xDC00 + n % 0x400)

def stringLiteral (s : String) : String :=
  String.ofList ('"' :: s.toList.flatMap escapeChar ++ ['"'])

def numberLiteral (x : Binary64) : String :=
  match x.form with
  | .nan => "NaN"
  | .infinity negative => if negative then "-Infinity" else "Infinity"
  | .finite .. => Shortest.text x

/-- Why a value cannot be written. -/
inductive Unwritable where
  /-- There is no such kind of value or of key. -/
  | kind
  /-- An integer has too many digits. -/
  | digits
  deriving DecidableEq, Repr

def integerLiteral (n : Int) : Except Unwritable String :=
  if Literal.isWritable n then .ok (toString n) else .error .digits

/-- The text of a key; keys that are no text are written as text. -/
def keyText : Value → Except Unwritable String
  | .str s => .ok s
  | .int n => integerLiteral n
  | .float x => .ok (numberLiteral x)
  | .bool b => .ok (if b then "true" else "false")
  | .null => .ok "null"
  | _ => .error .kind

/-! ### Sorted keys -/

/-- Keys are ordered among texts by code points and among numbers by value, with the infinities at
both ends. -/
inductive KeyOrder where
  | text (s : String)
  | number (num : Int) (den : Nat)
  | infinity (negative : Bool)
  | nan
  | unordered

def keyOrder : Value → KeyOrder
  | .str s => .text s
  | .int n => .number n 1
  | .bool b => .number b.toNat 1
  | .float x => match x.form with
    | .nan => .nan
    | .infinity negative => .infinity negative
    | .finite negative mantissa exponent =>
      let (num, den) := Binary64.ratio mantissa exponent
      .number (if negative then -num else num) den
  | _ => .unordered

namespace KeyOrder

def isText : KeyOrder → Bool
  | .text _ => true
  | _ => false

def isNumeric : KeyOrder → Bool
  | .number .. | .infinity _ | .nan => true
  | _ => false

/-- Whether the first key need not stand after the second. Nothing stands before a NaN or after it,
so with such a key among others the order depends on the way of sorting, which is left open. -/
def le : KeyOrder → KeyOrder → Bool
  | .text a, .text b => a ≤ b
  | .number a m, .number b n => a * n ≤ b * m
  | .infinity negative, .number .. => negative
  | .number .., .infinity negative => !negative
  | .infinity a, .infinity b => a || !b
  | _, _ => true

end KeyOrder

/-- Whether any two of the keys can be compared. -/
def comparable : List KeyOrder → Bool
  | [] | [_] => true
  | ks => ks.all KeyOrder.isText || ks.all KeyOrder.isNumeric

/-- Entries in the order of their keys, if the keys can be compared. -/
def sortEntries (es : List (Value × α)) : Except Unwritable (List (Value × α)) :=
  if comparable (es.map fun e => keyOrder e.1) then
    .ok (es.mergeSort fun a b => (keyOrder a.1).le (keyOrder b.1))
  else .error .kind

mutual

/-- One line without blanks, if JSON can write the value. -/
def compact : Value → Except Unwritable String
  | .null => .ok "null"
  | .bool b => .ok (if b then "true" else "false")
  | .int n => integerLiteral n
  | .float x => .ok (numberLiteral x)
  | .str s => .ok (stringLiteral s)
  | .list items => do
    let texts ← compactList items
    .ok ("[" ++ ",".intercalate texts ++ "]")
  | .map entries => do
    let sorted ← sortEntries (compactEntries entries)
    let members ← sorted.mapM fun (k, text) => do
      let key ← keyText k
      .ok (stringLiteral key ++ ":" ++ (← text))
    .ok ("\x7b" ++ ",".intercalate members ++ "\x7d")
  | _ => .error .kind

def compactList : List Value → Except Unwritable (List String)
  | [] => .ok []
  | v :: vs => do
    let text ← compact v
    let texts ← compactList vs
    .ok (text :: texts)

/-- Each key with what comes of its value. -/
def compactEntries : Entries → List (Value × Except Unwritable String)
  | [] => []
  | (k, v) :: es => (k, compact v) :: compactEntries es

end

/-! ### Indented output -/

def newline (depth : Nat) : String := String.ofList ('\n' :: List.replicate (2 * depth) ' ')

def enclose (opening closing : String) (depth : Nat) (members : List String) : String :=
  if members.isEmpty then opening ++ closing
  else opening ++ newline (depth + 1) ++ ("," ++ newline (depth + 1)).intercalate members ++
    newline depth ++ closing

mutual

/-- Two blanks for each level; what JSON cannot write stands as text. -/
def indented (depth : Nat) : Value → String
  | .null => "null"
  | .bool b => if b then "true" else "false"
  | .int n => toString n
  | .float x => numberLiteral x
  | .str s => stringLiteral s
  | .list items => enclose "[" "]" depth (indentedList (depth + 1) items)
  | .map entries => enclose "\x7b" "\x7d" depth (indentedEntries (depth + 1) entries)
  | v => stringLiteral v.text

def indentedList (depth : Nat) : List Value → List String
  | [] => []
  | v :: vs => indented depth v :: indentedList depth vs

def indentedEntries (depth : Nat) : Entries → List String
  | [] => []
  | (k, v) :: es =>
    (stringLiteral ((keyText k).toOption.getD k.text) ++ ": " ++ indented depth v) ::
      indentedEntries depth es

end

def pretty (v : Value) : String := indented 0 v

end Rulebook.Json
