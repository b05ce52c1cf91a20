import Rulebook.Fault

/-!
# Access to loosely shaped data

Looking into data that may have another shape than expected. What is not given counts as an empty
mapping; anything else that does not fit is a fault. A mapping can be given as a list of pairs: a
pair is anything with two elements, and its first element must be fit to be a key.
-/

namespace Rulebook

/-- The elements that a value consists of, if it consists of elements. -/
def Value.elements? : Value → Option (List Value)
  | .list items => some items
  | .map es => some (Entries.keys es)
  | .set members => some members
  | .str s => some (s.toList.map fun c => .str (String.singleton c))
  | .bytes data => some (data.map fun b => .int b.toNat)
  | _ => none

/-- Containers that can change are no keys. -/
def Value.isKey : Value → Bool
  | .list _ | .map _ | .set _ => false
  | _ => true

def pairsFrom (index : Nat) (es : Entries) : List Value → Except Fault Entries
  | [] => .ok es
  | v :: vs =>
    match v.elements? with
    | none => .error (.shape .kind)
    | some [key, value] =>
      if key.isKey then pairsFrom (index + 1) (es.insert key value) vs
      else .error (.shape .kind)
    | some other => .error (.badValue (.notAPair index other.length))

/-- The entries of a mapping or of a list of pairs. -/
def Value.toEntries (v : Value) : Except Fault Entries :=
  match v with
  | .map es => .ok es
  | v => match v.elements? with
    | some items => pairsFrom 0 [] items
    | none => .error (.shape .kind)

/-! ## What is not given -/

namespace Value

/-- The value, or an empty mapping where it counts as not given. -/
def orEmpty (v : Value) : Value := if v.isGiven then v else .map []

theorem orEmpty_map (es : Entries) : (map es).orEmpty = .map es := by
  cases es <;> rfl

/-- The value under a text key, null where there is none. -/
def get (v : Value) (name : String) : Except Fault Value :=
  match v with
  | .map es => .ok ((Entries.field? es name).getD .null)
  | _ => .error (.shape .attribute)

/-- The values of a mapping. -/
def values (v : Value) : Except Fault (List Value) :=
  match v with
  | .map es => .ok (es.map (·.2))
  | _ => .error (.shape .attribute)

/-- The elements that a value consists of. -/
def elements (v : Value) : Except Fault (List Value) :=
  match v.elements? with
  | some items => .ok items
  | none => .error (.shape .kind)

end Value

end Rulebook
