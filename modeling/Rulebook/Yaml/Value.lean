import Rulebook.Value.Linked
import Rulebook.Yaml.Node

/-!
# Values of nodes

A node stands for a value by its tag. Collections are filled level by level, all of one level
before the next, so of several errors the one nearest to the root counts, and the first of those.
A mapping keeps its mark, for it is one mapping at all the places where its node stands.
-/

namespace Rulebook

/-! ## Base64

Reading bytes written as base64. Characters outside the alphabet are passed over.
-/

namespace Base64

def digit? (c : Char) : Option Nat :=
  if 'A' ≤ c && c ≤ 'Z' then some (c.toNat - 'A'.toNat)
  else if 'a' ≤ c && c ≤ 'z' then some (c.toNat - 'a'.toNat + 26)
  else if '0' ≤ c && c ≤ '9' then some (c.toNat - '0'.toNat + 52)
  else if c = '+' then some 62
  else if c = '/' then some 63
  else none

/-- Decodes from the digit at place `place` of a group of four on; `held` is the digit before it
as far as no byte has taken it, and `pads` counts the padding read since the last digit. The text
may end where a group ends or is padded. -/
def decodeFrom (place held pads : Nat) : List Char → Option (List UInt8)
  | [] => if place = 0 then some [] else none
  | c :: s =>
    if c = '=' then
      if 2 ≤ place && 4 ≤ place + (pads + 1) then some []
      else decodeFrom place held (if 2 ≤ place then pads + 1 else pads) s
    else match digit? c with
      | none => decodeFrom place held pads s
      | some d =>
        match place with
        | 0 => decodeFrom 1 d 0 s
        | 1 => (UInt8.ofNat (held * 4 + d / 16) :: ·) <$> decodeFrom 2 (d % 16) 0 s
        | 2 => (UInt8.ofNat (held * 16 + d / 4) :: ·) <$> decodeFrom 3 (d % 4) 0 s
        | _ => (UInt8.ofNat (held * 64 + d) :: ·) <$> decodeFrom 0 0 0 s

def decode (s : List Char) : Option (List UInt8) := decodeFrom 0 0 0 s

end Base64

namespace Yaml

/-! ## Results of building -/

/-- An error, and how deep the collection lies in which it arises. -/
structure DeepError where
  depth : Nat
  error : Error

abbrev Built := Except DeepError

namespace Built

def fail (depth : Nat) (p : Problem) : Built α := .error ⟨depth, .malformed p⟩

/-- All results, or the error that counts. -/
def gather : List (Built α) → Built (List α)
  | [] => .ok []
  | x :: xs =>
    match x, gather xs with
    | .ok a, .ok as => .ok (a :: as)
    | .ok _, .error e => .error e
    | .error e, .ok _ => .error e
    | .error e, .error f => .error (if f.depth < e.depth then f else e)

end Built

namespace Scalar

def fault (f : Fault) : Except Error α := .error (.fault f)

def literal (e : Except Literal.Error α) : Except Error α :=
  e.mapError fun e => .fault (.badValue (.literal e))

def withoutUnderscores (s : Text) : Text := s.filter (· ≠ '_')

def colonParts (s : Text) : List Text := Blank.splitWhere (· == ':') s

def bool (s : Text) : Except Error Value :=
  let word := String.ofList (LowerCase.text s)
  if ["yes", "true", "on"].contains word then .ok (.bool true)
  else if ["no", "false", "off"].contains word then .ok (.bool false)
  else fault (.shape .key)

/-- The magnitude of an integer: with a base announced, in sixties, or decimal. -/
def magnitude (s : Text) : Except Error Int :=
  match s with
  | [] => fault (.shape .index)
  | '0' :: 'b' :: s => literal (Literal.integer 2 s)
  | '0' :: 'x' :: s => literal (Literal.integer 16 s)
  | '0' :: rest => if rest.isEmpty then .ok 0 else literal (Literal.integer 8 s)
  | s =>
    if s.contains ':' then do
      let parts ← (colonParts s).mapM fun part => literal (Literal.integer 10 part)
      .ok (parts.foldl (fun n d => 60 * n + d) 0)
    else literal (Literal.integer 10 s)

def int (s : Text) : Except Error Value :=
  match withoutUnderscores s with
  | [] => fault (.shape .index)
  | s => do
    let (negative, s) := Literal.splitSign s
    let n ← magnitude s
    .ok (.int (if negative then -n else n))

/-- The sum of the parts, each worth sixty times as much as the next, from the last on. -/
def sixties (parts : List Binary64) : Binary64 :=
  (parts.reverse.foldl (fun (sum, base) part =>
    (sum.add (part.mul (Binary64.ofInt base)), base * 60)) (Binary64.zero, (1 : Int))).1

def float (s : Text) : Except Error Value :=
  match LowerCase.text (withoutUnderscores s) with
  | [] => fault (.shape .index)
  | s => do
    let (negative, s) := Literal.splitSign s
    let word := String.ofList s
    if word = ".nan" then .ok (.float Binary64.nan)
    else
      let x ← if word = ".inf" then .ok (Binary64.infinity false)
        else if s.contains ':' then
          sixties <$> (colonParts s).mapM fun part => literal (Literal.number part)
        else literal (Literal.number s)
      .ok (.float (if negative then x.negate else x))

def binary (s : Text) : Except Error Value :=
  if s.all fun c => c.toNat < 128 then
    match Base64.decode s with
    | some bytes => .ok (.bytes bytes)
    | none => malformed .base64
  else malformed .base64

def timestamp (s : Text) : Except Error Value :=
  match Timestamp.read? (Tag.withoutFeed s) with
  | some t => t.value.mapError fun e => .fault (.badValue (.calendar e))
  | none => fault (.shape .attribute)

/-- The value of a scalar text; none if the tag is not one of a scalar. -/
def value (tag : Tag) (s : Text) : Except Error Value :=
  match tag with
  | .null => .ok .null
  | .bool => bool s
  | .int => int s
  | .float => float s
  | .binary => binary s
  | .timestamp => timestamp s
  | .str => .ok (.str (String.ofList s))
  | .seq | .omap | .pairs => malformed (.wrongKind "a sequence")
  | .map | .set => malformed (.wrongKind "a mapping")
  | .merge | .value | .unknown _ => malformed (.undefinedTag tag.uri)

end Scalar

namespace Tag

/-- Tags of collections, whose content is looked at one level further down. -/
def isCollection : Tag → Bool
  | .seq | .map | .omap | .pairs | .set => true
  | _ => false

end Tag

namespace Node

def tag : Node → Tag
  | .scalar tag _ | .sequence tag _ | .mapping _ tag _ => tag

mutual

/-- The text of a node as a scalar; a mapping has that of its key `=`. -/
def scalarText? : Node → Option Text
  | .scalar _ text => some text
  | .sequence .. => none
  | .mapping _ _ pairs => defaultText? pairs

def defaultText? : List (Node × Node) → Option Text
  | [] => none
  | (k, v) :: pairs => if k.tag = .value then scalarText? v else defaultText? pairs

end

/-- The pairs of a mapping: what is wrong with its merges, the pairs merged in, and its own. -/
structure Flat where
  faults : List DeepError
  merged : List (Built (Value × Linked))
  own : List (Built (Value × Linked))

namespace Flat

def pairs (f : Flat) : List (Built (Value × Linked)) :=
  f.faults.map .error ++ f.merged ++ f.own

/-- Adds a merge in front of what comes later. -/
def addMerge (f : Flat) (m : Flat) : Flat :=
  ⟨m.faults ++ f.faults, m.merged ++ m.own ++ f.merged, f.own⟩

def addFault (f : Flat) (e : DeepError) : Flat := { f with faults := e :: f.faults }

def addPair (f : Flat) (p : Built (Value × Linked)) : Flat := { f with own := p :: f.own }

end Flat

def pairOf (depth : Nat) (key : Built Value) (value : Built Linked) : Built (Value × Linked) := do
  let k ← key
  if !k.isKey then Built.fail depth .unusableKey
  .ok (k, ← value)

/-- The value of a scalar, or of a collection that is tagged as a scalar. -/
def buildScalar (depth : Nat) (tag : Tag) (text : Option Text) : Built Value :=
  let result : Except Error Value := match tag, text with
    | .merge, _ | .value, _ | .unknown _, _ => Scalar.malformed (.undefinedTag tag.uri)
    | _, none => Scalar.malformed (.wrongKind "a scalar")
    | _, some text => Scalar.value tag text
  result.mapError fun e => ⟨if tag.isCollection then depth + 1 else depth, e⟩

/-- A key that is a collection is refused before anything in it is looked at. -/
def buildKey (depth : Nat) (tag : Tag) (key : Built Linked) : Built Value :=
  if tag.isCollection then Built.fail depth .unusableKey else Linked.bare <$> key

mutual

/-- The value of a node in a collection at `depth`. -/
def build (depth : Nat) : Node → Built Linked
  | .scalar tag text => .plain <$> buildScalar depth tag (some text)
  | .sequence tag items =>
    match tag with
    | .seq => .list <$> Built.gather (buildItems (depth + 1) items)
    | .omap | .pairs => .list <$> Built.gather (buildSinglePairs (depth + 1) items)
    | .map | .set => Built.fail (depth + 1) (.wrongKind "a mapping")
    | tag => .plain <$> buildScalar depth tag none
  | .mapping mark tag pairs =>
    match tag with
    | .map => do
      .ok (.map (some mark) (Links.ofList (← Built.gather (buildPairs (depth + 1) pairs).pairs)))
    | .set => do
      let es := Links.ofList (← Built.gather (buildPairs (depth + 1) pairs).pairs)
      .ok (.plain (.set (es.map (·.1))))
    | .seq | .omap | .pairs => Built.fail (depth + 1) (.wrongKind "a sequence")
    | tag => .plain <$> buildScalar depth tag (defaultText? pairs)

def buildItems (depth : Nat) : List Node → List (Built Linked)
  | [] => []
  | n :: ns => build depth n :: buildItems depth ns

/-- The items of a list of pairs, each of which is a mapping with one entry. -/
def buildSinglePairs (depth : Nat) : List Node → List (Built Linked)
  | [] => []
  | n :: ns =>
    let item : Built Linked := match n with
      | .mapping _ _ [(k, v)] => do .ok (.list [← build depth k, ← build depth v])
      | _ => Built.fail depth (.wrongKind "a mapping of length 1")
    item :: buildSinglePairs depth ns

/-- The entries of a mapping at `depth`. Merged entries come first, so that its own prevail. -/
def buildPairs (depth : Nat) : List (Node × Node) → Flat
  | [] => ⟨[], [], []⟩
  | (k, v) :: pairs =>
    let more := buildPairs depth pairs
    if k.tag = .merge then
      match v with
      | .mapping _ _ merged => more.addMerge (buildPairs depth merged)
      | .sequence _ items => more.addMerge (buildMerges depth items)
      | .scalar .. => more.addFault ⟨depth, .malformed .merge⟩
    else
      let key := if k.tag = .value then buildScalar depth .str k.scalarText?
        else buildKey depth k.tag (build depth k)
      more.addPair (pairOf depth key (build depth v))

/-- Several mappings to merge, of which an earlier one prevails over a later one. -/
def buildMerges (depth : Nat) : List Node → Flat
  | [] => ⟨[], [], []⟩
  | n :: ns =>
    let more := buildMerges depth ns
    match n with
    | .mapping _ _ merged =>
      let f := buildPairs depth merged
      ⟨f.faults ++ more.faults, more.merged ++ f.merged ++ f.own, []⟩
    | _ => more.addFault ⟨depth, .malformed .merge⟩

end

end Node

/-- The value of the one document in a text, with all that it shares. The text is taken as a whole:
a character that may not stand in it counts over all else, then the first token that cannot be read
or does not fit, then a value that cannot be built. A reader that takes its text in parts, or looks
ahead for keys, may meet these in another order. Values are finite: where an alias stands inside the
node that its anchor names, no value holds itself, but the node counts as empty there. -/
def readLinked (s : Text) : Except Error Linked :=
  match s.find? fun c => !isPrintable c with
  | some c => .error (.malformed (.unprintable c))
  | none => do
    match ← Node.ofTokens (Token.stream s) with
    | none => .ok (.plain .null)
    | some n => (n.build 0).mapError DeepError.error
where
  isPrintable (c : Char) : Bool :=
    let n := c.toNat
    n == 0x09 || n == 0x0A || n == 0x0D || (0x20 ≤ n && n ≤ 0x7E) || n == 0x85 ||
      (0xA0 ≤ n && n ≤ 0xD7FF) || (0xE000 ≤ n && n ≤ 0xFFFD) || 0x10000 ≤ n

/-- The value of the one document in a text. -/
def read (s : Text) : Except Error Value := Linked.bare <$> readLinked s

end Yaml

end Rulebook
