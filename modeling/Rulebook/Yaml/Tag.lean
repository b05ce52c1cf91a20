import Rulebook.Yaml.Timestamp

/-!
# Tags

The tag of a node says what kind of value it stands for. A plain scalar without a tag gets one by
its form.
-/

namespace Rulebook.Yaml

inductive Tag where
  | null | bool | int | float | binary | timestamp | str
  | seq | map | omap | pairs | set
  /-- The key `<<`, which merges other mappings in. -/
  | merge
  /-- The key `=`, which stands for the mapping as a scalar. -/
  | value
  | unknown (uri : String)
  deriving DecidableEq, Repr

namespace Tag

/-- The tags of the standard all start so. -/
def standard : String := "tag:yaml.org,2002:"

def names : List (String × Tag) :=
  [("null", null), ("bool", bool), ("int", int), ("float", float), ("binary", binary),
    ("timestamp", timestamp), ("str", str), ("seq", seq), ("map", map), ("omap", omap),
    ("pairs", pairs), ("set", set), ("merge", merge), ("value", value)]

def ofUri (uri : String) : Tag :=
  ((names.find? fun x => standard ++ x.1 = uri).map (·.2)).getD (unknown uri)

def uri : Tag → String
  | .unknown uri => uri
  | tag => standard ++ ((names.find? fun x => x.2 = tag).map (·.1)).getD ""

/-! ### The forms of plain scalars -/

def boolWords : List String :=
  ["yes", "Yes", "YES", "no", "No", "NO", "true", "True", "TRUE", "false", "False", "FALSE",
    "on", "On", "ON", "off", "Off", "OFF"]

def nullWords : List String := ["", "~", "null", "Null", "NULL"]

def isSpacedDigit (c : Char) : Bool := c.isDigit || c == '_'

/-- Digits and underscores, a digit first. -/
def isWhole : Text → Bool
  | [] => false
  | c :: s => c.isDigit && s.all isSpacedDigit

/-- Digits and underscores, a digit but zero first. -/
def isPositive (s : Text) : Bool := isWhole s && s.head? != some '0'

/-- A number below sixty of one or two digits. -/
def isSixtieth : Text → Bool
  | [c] => c.isDigit
  | [c, d] => c.isDigit && c < '6' && d.isDigit
  | _ => false

/-- Numbers between colons, of which only the first can be sixty or more. -/
def isSexagesimal (first : Text → Bool) (s : Text) : Bool :=
  match Blank.splitWhere (· == ':') s with
  | whole :: part :: parts => first whole && (part :: parts).all isSixtieth
  | _ => false

def isInt (s : Text) : Bool :=
  match (Literal.splitSign s).2 with
  | '0' :: 'b' :: d :: ds => (d :: ds).all fun c => c == '0' || c == '1' || c == '_'
  | '0' :: 'x' :: d :: ds => (d :: ds).all fun c => (Digit.hex? c).isSome || c == '_'
  | '0' :: ds => ds.all fun c => ('0' ≤ c && c ≤ '7') || c == '_'
  | s => isPositive s || isSexagesimal isPositive s

/-- Nothing, or an exponent with a sign. -/
def isExponent : Text → Bool
  | [] => true
  | e :: sign :: ds =>
    (e == 'e' || e == 'E') && (sign == '-' || sign == '+') && !ds.isEmpty && ds.all Char.isDigit
  | _ => false

/-- A fraction, and perhaps an exponent. -/
def isFraction (s : Text) : Bool := isExponent (s.dropWhile isSpacedDigit)

def isFloat (s : Text) : Bool :=
  let unsigned := (Literal.splitSign s).2
  let word := String.ofList unsigned
  [".inf", ".Inf", ".INF"].contains word ||
    [".nan", ".NaN", ".NAN"].contains (String.ofList s) ||
    (match s with
      | '.' :: c :: s => c.isDigit && isFraction s
      | _ => false) ||
    match Literal.cut (· == '.') unsigned with
    | (whole, some fraction) =>
      (isWhole whole && isFraction fraction) ||
        (isSexagesimal isWhole whole && fraction.all isSpacedDigit)
    | _ => false

/-- A date without a time has to be padded with zeros. -/
def isTimestamp (s : Text) : Bool :=
  match Timestamp.read? s with
  | some t => t.isPadded || t.time.isSome
  | none => false

/-- One line feed at the end does not count for the form of a scalar. -/
def withoutFeed (s : Text) : Text := if s.getLast? = some '\n' then s.dropLast else s

/-- The tag that the form of a plain scalar gives it. -/
def ofPlain (s : Text) : Tag :=
  let form := withoutFeed s
  let word := String.ofList form
  if form.isEmpty && !s.isEmpty then str
  else if boolWords.contains word then bool
  else if isFloat form then float
  else if isInt form then int
  else if word = "<<" then merge
  else if nullWords.contains word then null
  else if isTimestamp form then timestamp
  else if word = "=" then value
  else str

end Tag

end Rulebook.Yaml
