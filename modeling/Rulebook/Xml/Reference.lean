import Rulebook.Text.Digit
import Rulebook.Xml.Element
import Rulebook.Xml.Name

/-!
# References and entities

A reference writes a character by its number, or stands for the text of an entity. Five entities
are always known.

## Main definitions

* `Entities`: the entities that a document declares.
* `Entities.attributeText`: the value that an attribute has after its references are replaced.
* `Entities.isBalanced`: the text that references stand for stays in proportion.
-/

namespace Rulebook.Xml

inductive Reference where
  | char (c : Char)
  | entity (name : Text)
  deriving DecidableEq, Repr

def predefined? (name : Text) : Option Char :=
  [("lt".toList, '<'), ("gt".toList, '>'), ("amp".toList, '&'), ("quot".toList, '"'),
    ("apos".toList, '\'')].lookup name

def charOfNumber? (n : Nat) : Option Char :=
  if n.isValidChar && isChar (Char.ofNat n) then some (Char.ofNat n) else none

def number? (radix : Nat) (isDigit : Char → Bool) (s : Text) : Option (Nat × Text) :=
  let digits := s.takeWhile isDigit
  match s.dropWhile isDigit with
  | ';' :: rest =>
    if digits.isEmpty then none
    else some (digits.foldl (fun n c => radix * n + (Digit.hex? c).getD 0) 0, rest)
  | _ => none

/-- The reference whose ampersand stands before `s`, and what follows it. -/
def reference (s : Text) : Except Problem (Reference × Text) :=
  let charReference (found : Option (Nat × Text)) : Except Problem (Reference × Text) :=
    match found with
    | none => .error .markup
    | some (n, rest) => match charOfNumber? n with
      | some c => .ok (.char c, rest)
      | none => .error .reference
  match s with
  | '#' :: 'x' :: s => charReference (number? 16 (fun c => (Digit.hex? c).isSome) s)
  | '#' :: s => charReference (number? 10 Digit.isAscii s)
  | s => match plainName? s with
    | some (name, ';' :: rest) => match predefined? name with
      | some c => .ok (.char c, rest)
      | none => .ok (.entity name, rest)
    | _ => .error .markup

inductive Entity where
  | internal (text : Text)
  /-- The text is somewhere else, or is no XML. -/
  | external
  deriving DecidableEq, Repr

/-- The declared entities. Others may be declared in a part of the document that is not read,
unless `closed`. -/
structure Entities where
  table : List (Text × Entity)
  closed : Bool
  deriving Repr

namespace Entities

def find? (es : Entities) (name : Text) : Option Entity := es.table.lookup name

/-- Entities nest at most as deep as there are entities, unless one is part of itself. -/
def depth (es : Entities) : Nat := es.table.length + 1

/-- Replaces the references in the value of an attribute; `inner` reads the text of an entity. -/
def replaceReferences (es : Entities) (inner : Text → Except Problem Text) :
    Nat → Text → Text → Except Problem Text
  | 0, done, _ | _, done, [] => .ok done.reverse
  | _, _, '<' :: _ => .error .markup
  | fuel + 1, done, '&' :: s =>
    match reference s with
    | .error p => .error p
    | .ok (.char c, rest) => es.replaceReferences inner fuel (c :: done) rest
    | .ok (.entity name, rest) =>
      match es.find? name with
      | none =>
        if es.closed then .error (.undefinedEntity (String.ofList name))
        else es.replaceReferences inner fuel done rest
      | some .external => .error (.unreadEntity (String.ofList name))
      | some (.internal text) =>
        match inner text with
        | .error p => .error p
        | .ok piece => es.replaceReferences inner fuel (piece.reverse ++ done) rest
  | fuel + 1, done, c :: s =>
    es.replaceReferences inner fuel ((if isSpace c then ' ' else c) :: done) s

def attributeTextAt (es : Entities) : Nat → Text → Except Problem Text
  | 0, _ => .error (.recursiveEntity "")
  | depth + 1, s => es.replaceReferences (es.attributeTextAt depth) s.length [] s

/-- The value of an attribute that is written `s`. -/
def attributeText (es : Entities) (s : Text) : Except Problem Text :=
  es.attributeTextAt es.depth s

/-! ### Amplification -/

/-- The names that stand between an ampersand and a semicolon. -/
def mentions : Text → List Text
  | [] => []
  | '&' :: s => match plainName? s with
    | some (name, ';' :: _) => name :: mentions s
    | _ => mentions s
  | _ :: s => mentions s

/-- The lengths of texts, with `sizes` for the entities that they mention. -/
def weigh (sizes : List (Text × Nat)) (s : Text) : Nat :=
  (mentions s).foldl (fun n name => n + (sizes.lookup name).getD 0) s.length

/-- The lengths of the entities, counted through `depth` levels of mentions. -/
def sizes (es : Entities) : Nat → List (Text × Nat)
  | 0 => []
  | depth + 1 =>
    let inner := es.sizes depth
    es.table.map fun (name, entity) => match entity with
      | .internal text => (name, weigh inner text)
      | .external => (name, 0)

/-- What is read in full is short, or at most a hundred times what is written. -/
def isBalanced (es : Entities) (s : Text) : Bool :=
  let full := weigh (es.sizes es.depth) s
  full < 8388608 || full ≤ 100 * s.length

end Entities

end Rulebook.Xml
