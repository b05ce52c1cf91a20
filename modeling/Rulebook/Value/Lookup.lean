import Rulebook.Fault
import Rulebook.Text.Search

/-!
# Dotted lookup

A dotted path leads through nested mappings and lists. The whole path is tried as a key first, so
a key that holds dots can be named as it stands.
-/

namespace Rulebook

/-- The parts of a path between dots. -/
def dottedParts (path : String) : List String :=
  (Blank.splitWhere (· == '.') path.toList).map String.ofList

/-- The position that a part names, if it is made of digits. -/
def listIndex? (part : String) : Except Fault (Option Nat) :=
  if part ≠ "" && part.toList.all Digit.isDigitLike then
    match Literal.integer 10 part.toList with
    | .ok n => .ok (some n.toNat)
    | .error e => .error (.badValue (.literal e))
  else .ok none

/-- One step into `v`. -/
def Value.part? (v : Value) (part : String) : Except Fault (Option Value) :=
  match v with
  | .map es => .ok (Entries.field? es part)
  | .list items => do
    match ← listIndex? part with
    | some n => .ok items[n]?
    | none => .ok none
  | _ => .ok none

/-- Descends part by part; none as soon as a part is missing. -/
def Value.descend (v : Value) : List String → Except Fault (Option Value)
  | [] => .ok (some v)
  | part :: parts => do
    match ← v.part? part with
    | some w => w.descend parts
    | none => .ok none

/-- Whether a list or a text holds `path` itself, which then cannot be used as a key. -/
def Value.holds (v : Value) (path : String) : Bool :=
  match v with
  | .list items => items.contains (.str path)
  | .str s => Search.contains path.toList s.toList
  | .set members => members.contains (.str path)
  | _ => false

/-- The value that `path` names in `v`. -/
def Value.resolve (v : Value) (path : String) : Except Fault (Option Value) :=
  match v with
  | .map es =>
    match Entries.field? es path with
    | some w => .ok (some w)
    | none => v.descend (dottedParts path)
  | .list _ | .str _ | .set _ =>
    if v.holds path then .error (.shape .kind) else v.descend (dottedParts path)
  | _ => .error (.shape .kind)

end Rulebook
