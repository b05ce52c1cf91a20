import Rulebook.Config.Error
import Rulebook.Json.Reader
import Rulebook.Text.Search
import Rulebook.Value.Linked

/-!
# Environment overrides

A variable such as `AI_SYNC_composition__max_include_depth` sets one value of the configuration;
double underscores stand between the keys that lead to it. The variables apply in the order of
their names. A mapping that stands at several places changes at all of them.
-/

namespace Rulebook.Config

/-! ## Values

The environment holds text only. Text that reads as a truth value, a number, or a JSON list or
object stands for that value, and all other text for itself without the blanks around it.
-/

def isDigits (s : Text) : Bool := s.all fun c => (Digit.decimal? c).isSome

/-- Digits with perhaps a sign. -/
def isIntegerText (s : Text) : Bool :=
  let digits := (Literal.splitSign s).2
  !digits.isEmpty && isDigits digits

/-- Digits with a point among them, or at one end, and perhaps a sign. -/
def isDecimalText (s : Text) : Bool :=
  match Literal.cut (· == '.') (Literal.splitSign s).2 with
  | (whole, some fraction) =>
    isDigits whole && isDigits fraction && !(whole.isEmpty && fraction.isEmpty)
  | _ => false

/-- Text in the brackets of a JSON list or object. -/
def isBracketed (s : Text) : Bool :=
  (s.head? == some '{' && s.getLast? == some '}') || (s.head? == some '[' && s.getLast? == some ']')

def coerce (value : Text) : Except Fault Value :=
  let s := Blank.trim value
  let word := String.ofList (LowerCase.text s)
  let literal {α : Type} (e : Except Literal.Error α) : Except Fault α :=
    e.mapError fun e => .badValue (.literal e)
  if word = "true" then .ok (.bool true)
  else if word = "false" then .ok (.bool false)
  else if isIntegerText s then .int <$> literal (Literal.integer 10 s)
  else if isDecimalText s then .float <$> literal (Literal.number s)
  else if isBracketed s then
    match Json.read s with
    | .ok v => .ok v
    | .error (.numeral e) => literal (.error e)
    | .error _ => .ok (.str (String.ofList s))
  else .ok (.str (String.ofList s))

/-! ## Variables -/

/-- The environment variables by name. -/
abbrev Environment := List (String × String)

/-- The pieces between double underscores, taken from the left. -/
def splitKeys : Text → List Text
  | [] => [[]]
  | '_' :: '_' :: s => [] :: splitKeys s
  | c :: s =>
    match splitKeys s with
    | [] => [[c]]
    | piece :: pieces => (c :: piece) :: pieces

/-- The keys that a variable sets; none if it is not about the configuration. -/
def keysOf? (name : String) : Except Error (Option (List String)) :=
  match Search.dropStart? variableStart.toList name.toList with
  | none => .ok none
  | some rest =>
    let keys := splitKeys rest
    if keys.any (·.isEmpty) then .error (.malformedKey name)
    else .ok (some (keys.map String.ofList))

/-- Sets the value that `keys` lead to. What stands in the way and is no mapping gives way. -/
def setPath (es : Entries) (keys : List String) (value : Value) : Entries :=
  match keys with
  | [] => es
  | [key] => es.insert (.str key) value
  | key :: keys =>
    let inner := match es.field? key with
      | some (.map inner) => inner
      | _ => []
    es.insert (.str key) (.map (setPath inner keys value))

/-- As `setPath`, along one way. -/
def setLinked (es : Links) (keys : List String) (value : Value) : Links :=
  match keys with
  | [] => es
  | [key] => es.insert (.str key) (.plain value)
  | key :: keys =>
    let (mark, inner) := ((es.find? (.str key)).bind Linked.entries?).getD (none, [])
    es.insert (.str key) (.map mark (setLinked inner keys value))

/-- A marked mapping on a way, and the keys that lead on from it. -/
structure Waypoint where
  mark : Nat
  entries : Links
  keys : List String

/-- The last marked mapping that a change of what `keys` lead to passes through. -/
def lastMarked (es : Links) : List String → Option Waypoint
  | key :: next :: keys =>
    match (es.find? (.str key)).bind Linked.entries? with
    | none => none
    | some (mark, inner) =>
      (lastMarked inner (next :: keys)).or (mark.map fun m => ⟨m, inner, next :: keys⟩)
  | _ => none

/-- Sets the value that `keys` lead to, in all places of the mapping that this changes. -/
def assign (es : Links) (keys : List String) (value : Value) : Links :=
  match lastMarked es keys with
  | none => setLinked es keys value
  | some w => Links.rewrite w.mark (setLinked w.entries w.keys value) es

/-- Applies one variable. -/
def applyVariable (es : Links) (setting : String × String) : Except Failure Links := do
  match ← (keysOf? setting.1).mapError .error with
  | none => .ok es
  | some keys =>
    let value ← (coerce setting.2.toList).mapError .fault
    .ok (assign es keys value)

/-- Applies the variables of the environment in the order of their names. -/
def applyEnvironment (es : Links) (env : Environment) : Except Failure Links :=
  (env.mergeSort fun a b => decide (a.1 ≤ b.1)).foldlM applyVariable es

end Rulebook.Config
