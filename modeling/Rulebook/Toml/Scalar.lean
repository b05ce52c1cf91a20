import Rulebook.Text.Search
import Rulebook.Toml.Error
import Rulebook.Value.Basic

/-!
# Scalars

Strings, keys, numbers, dates and times. Each reader returns what it has read and what follows it.
-/

namespace Rulebook.Toml

/-- Control characters other than the tabulator are not allowed anywhere. -/
def isControl (c : Char) : Bool := (c.toNat < 0x20 && c != '\t') || c.toNat == 0x7F

/-- In strings of several lines a line feed is allowed too. -/
def isForbidden (multiline : Bool) (c : Char) : Bool :=
  isControl c && !(multiline && c == '\n')

def skipBlanks (s : Text) : Text := s.dropWhile Blank.isSpaceOrTab

def skipBlankLines (s : Text) : Text := s.dropWhile fun c => Blank.isSpaceOrTab c || c == '\n'

/-- What follows a comment at the start of `s`, or `s`. -/
def skipComment (s : Text) : Except Error Text :=
  match s with
  | '#' :: s =>
    match (s.takeWhile (· ≠ '\n')).find? isControl with
    | some c => malformed (.control c)
    | none => .ok (s.dropWhile (· ≠ '\n'))
  | s => .ok s

/-! ### Strings -/

/-- Text without escapes up to `close`. -/
def literalText (multiline : Bool) (close s : Text) : Except Error (Text × Text) :=
  match Search.split? close s with
  | none => malformed .openString
  | some (text, rest) => match text.find? (isForbidden multiline) with
    | some c => malformed (.control c)
    | none => .ok (text, rest)

def simpleEscape? (c : Char) : Option Char :=
  [('b', '\x08'), ('t', '\t'), ('n', '\n'), ('f', '\x0C'), ('r', '\r'), ('"', '"'),
    ('\\', '\\')].lookup c

/-- The character that `width` hexadecimal digits name, unless it is half a surrogate pair. -/
def hexEscape (width : Nat) (s : Text) : Except Error (Text × Text) :=
  match Digit.hexNumber? (s.take width) with
  | some code =>
    if (s.take width).length = width && code.isValidChar then
      .ok ([Char.ofNat code], s.drop width)
    else malformed .escape
  | none => malformed .escape

/-- What a backslash before `s` stands for. In a string of several lines it can stand before the
end of a line, and takes the blanks after it away. -/
def escape (multiline : Bool) (s : Text) : Except Error (Text × Text) :=
  match s with
  | [] => malformed .escape
  | 'u' :: s => hexEscape 4 s
  | 'U' :: s => hexEscape 8 s
  | c :: rest =>
    if multiline && c == '\n' then .ok ([], skipBlankLines rest)
    else if multiline && Blank.isSpaceOrTab c then
      match skipBlanks rest with
      | [] => .ok ([], [])
      | '\n' :: rest => .ok ([], skipBlankLines rest)
      | _ => malformed .escape
    else match simpleEscape? c with
      | some d => .ok ([d], rest)
      | none => malformed .escape

/-- Text with escapes up to the closing quotes. -/
def basicText (multiline : Bool) : Nat → Text → Except Error (Text × Text)
  | 0, _ | _, [] => malformed .openString
  | fuel + 1, c :: s =>
    if c == '\\' then do
      let (piece, rest) ← escape multiline s
      let (more, rest) ← basicText multiline fuel rest
      .ok (piece ++ more, rest)
    else if c == '"' && !multiline then .ok ([], s)
    else if c == '"' && "\"\"".toList.isPrefixOf s then .ok ([], s.drop 2)
    else if isForbidden multiline c then malformed (.control c)
    else do
      let (more, rest) ← basicText multiline fuel s
      .ok (c :: more, rest)

/-- Up to two quotes just after the closing ones belong to the string. -/
def extraQuotes (quote : Char) (text rest : Text) : Text × Text :=
  let extra := (rest.take 2).takeWhile (· == quote)
  (text ++ extra, rest.drop extra.length)

/-- A line feed just after the opening quotes does not count. -/
def skipFirstFeed : Text → Text
  | '\n' :: s => s
  | s => s

/-- The string at the start of `s`; `several` allows three quotes and several lines. -/
def string? (several : Bool) (s : Text) : Option (Except Error (Text × Text)) :=
  match s with
  | '"' :: '"' :: '"' :: rest =>
    let long := skipFirstFeed rest
    if several then
      some ((basicText true long.length long).map fun (text, rest) => extraQuotes '"' text rest)
    else some (.ok ([], '"' :: rest))
  | '\'' :: '\'' :: '\'' :: rest =>
    if several then
      some ((literalText true "'''".toList (skipFirstFeed rest)).map fun (text, rest) =>
        extraQuotes '\'' text rest)
    else some (.ok ([], '\'' :: rest))
  | '"' :: s => some (basicText false s.length s)
  | '\'' :: s => some (literalText false ['\''] s)
  | _ => none

/-! ### Keys -/

def isBare (c : Char) : Bool := c.isAlphanum || c == '-' || c == '_'

def keyPart (s : Text) : Except Error (String × Text) :=
  let bare := s.takeWhile isBare
  if !bare.isEmpty then .ok (String.ofList bare, s.drop bare.length)
  else match string? false s with
    | some result => result.map fun (text, rest) => (String.ofList text, rest)
    | none => malformed .key

/-- A key of one or several parts with dots between them, and the blanks after it. -/
def key : Nat → Text → Except Error (List String × Text)
  | 0, _ => malformed .key
  | fuel + 1, s => do
    let (part, rest) ← keyPart s
    match skipBlanks rest with
    | '.' :: rest =>
      let (parts, rest) ← key fuel (skipBlanks rest)
      .ok (part :: parts, rest)
    | rest => .ok ([part], rest)

/-! ### Numbers -/

/-- Digits with single underscores between them, as many as there are. -/
def spacedDigits (isDigit : Char → Bool) : Text → Text
  | [] => []
  | c :: s =>
    if !isDigit c then []
    else match s with
      | '_' :: d :: s => if isDigit d then c :: '_' :: spacedDigits isDigit (d :: s) else [c]
      | s => c :: spacedDigits isDigit s

/-- An integer in another base, after a zero and a letter. -/
def basedNumber? (s : Text) : Option (Nat × Text) :=
  let digits (base : Nat) (s : Text) : Option (Nat × Text) :=
    let found := spacedDigits (fun c => (Digit.hex? c).any (· < base)) s
    if found.isEmpty then none else some (base, found)
  match s with
  | '0' :: 'x' :: s => digits 16 s
  | '0' :: 'b' :: s => digits 2 s
  | '0' :: 'o' :: s => digits 8 s
  | _ => none

def fraction (s : Text) : Text :=
  match s with
  | '.' :: s =>
    let digits := spacedDigits Char.isDigit s
    if digits.isEmpty then [] else '.' :: digits
  | _ => []

def exponent (s : Text) : Text :=
  match s with
  | e :: s =>
    if e != 'e' && e != 'E' then []
    else
      let sign := s.take 1 |>.filter fun c => c == '+' || c == '-'
      let digits := spacedDigits Char.isDigit (s.drop sign.length)
      if digits.isEmpty then [] else e :: sign ++ digits
  | _ => []

/-- The sign and the digits of a decimal number before any fraction, without needless zeros. -/
def wholePart (s : Text) : Text :=
  let sign := s.take 1 |>.filter fun c => c == '+' || c == '-'
  match s.drop sign.length with
  | '0' :: _ => sign ++ ['0']
  | s =>
    let digits := spacedDigits Char.isDigit s
    if digits.isEmpty then [] else sign ++ digits

def number? (s : Text) : Option (Except Error Value × Text) :=
  let literal (e : Except Literal.Error Value) : Except Error Value := e.mapError .numeral
  match basedNumber? s with
  | some (base, digits) =>
    some (literal ((Literal.integer base digits).map .int), s.drop (digits.length + 2))
  | none =>
    let whole := wholePart s
    if whole.isEmpty then none
    else
      let fraction := fraction (s.drop whole.length)
      let exponent := exponent (s.drop (whole.length + fraction.length))
      let text := whole ++ fraction ++ exponent
      let value := if fraction.isEmpty && exponent.isEmpty then (Literal.integer 10 text).map .int
        else (Literal.number text).map .float
      some (literal value, s.drop text.length)

def specialNumber? (s : Text) : Option (Binary64 × Text) :=
  let (negative, rest) := Literal.splitSign s
  match rest with
  | 'i' :: 'n' :: 'f' :: rest => some (Binary64.infinity negative, rest)
  | 'n' :: 'a' :: 'n' :: rest => some (Binary64.nan, rest)
  | _ => none

/-! ### Dates and times -/

/-- The number that exactly `width` digits write, if it is within bounds. -/
def bounded? (width least most : Nat) (s : Text) : Option (Nat × Text) :=
  let digits := s.take width
  if digits.length = width && digits.all Char.isDigit then
    let n := Literal.ofDigits 10 (digits.map fun c => c.toNat - 48)
    if least ≤ n && n ≤ most then some (n, s.drop width) else none
  else none

def char? (c : Char) : Text → Option Text
  | d :: s => if c = d then some s else none
  | [] => none

/-- The fraction of a second as millionths; further digits are passed over. -/
def micros (s : Text) : Nat × Text :=
  match s with
  | '.' :: rest =>
    let digits := rest.takeWhile Char.isDigit
    if digits.isEmpty then (0, s)
    else
      let six := digits.take 6 ++ List.replicate (6 - digits.length) '0'
      (Literal.ofDigits 10 (six.map fun c => c.toNat - 48), rest.drop digits.length)
  | s => (0, s)

def clock? (s : Text) : Option (Clock × Text) := do
  let (hour, s) ← bounded? 2 0 23 s
  let (minute, s) ← bounded? 2 0 59 (← char? ':' s)
  let (second, s) ← bounded? 2 0 59 (← char? ':' s)
  let (micro, s) := micros s
  some (⟨hour, minute, second, micro⟩, s)

def date? (s : Text) : Option (Date × Text) := do
  let (year, s) ← bounded? 4 0 9999 s
  let (month, s) ← bounded? 2 1 12 (← char? '-' s)
  let (day, s) ← bounded? 2 1 31 (← char? '-' s)
  some (⟨year, month, day⟩, s)

/-- The offset from universal time at the start of `s` in minutes. -/
def offset? (s : Text) : Option (Int × Text) :=
  match s with
  | 'Z' :: s | 'z' :: s => some (0, s)
  | sign :: s =>
    if sign != '+' && sign != '-' then none
    else do
      let (hour, s) ← bounded? 2 0 23 s
      let (minute, s) ← bounded? 2 0 59 (← char? ':' s)
      let n : Int := hour * 60 + minute
      some (if sign = '-' then -n else n, s)
  | [] => none

/-- A time of day after a date. -/
def laterClock? (s : Text) : Option (Clock × Text) :=
  match s with
  | c :: s => if c == 'T' || c == 't' || c == ' ' then clock? s else none
  | [] => none

/-- A date, with a time of day and an offset if they follow. -/
def moment? (s : Text) : Option (Except Error Value × Text) := do
  let (date, s) ← date? s
  let checked (v : Value) : Except Error Value :=
    match Calendar.checkDate date with
    | .ok _ => .ok v
    | .error _ => malformed .calendar
  match laterClock? s with
  | none => some (checked (.date date), s)
  | some (clock, s) =>
    match offset? s with
    | none => some (checked (.moment ⟨date, clock, none⟩), s)
    | some (offset, s) => some (checked (.moment ⟨date, clock, some offset⟩), s)

/-! ### Any scalar -/

def literalWord? (s : Text) : Option (Value × Text) :=
  match s with
  | 't' :: 'r' :: 'u' :: 'e' :: s => some (.bool true, s)
  | 'f' :: 'a' :: 'l' :: 's' :: 'e' :: s => some (.bool false, s)
  | _ => none

/-- The value at the start of `s` that is not an array or a table. -/
def scalar (s : Text) : Except Error (Value × Text) :=
  match string? true s with
  | some result => result.map fun (text, rest) => (.str (String.ofList text), rest)
  | none => match literalWord? s with
    | some found => .ok found
    | none => match moment? s with
      | some (value, rest) => value.map fun v => (v, rest)
      | none => match clock? s with
        | some (clock, rest) => .ok (.clock clock, rest)
        | none => match number? s with
          | some (value, rest) => value.map fun v => (v, rest)
          | none => match specialNumber? s with
            | some (x, rest) => .ok (.float x, rest)
            | none => malformed .value

end Rulebook.Toml
