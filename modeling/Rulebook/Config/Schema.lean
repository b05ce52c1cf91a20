import Rulebook.Fault

/-!
# Schemas

A schema says of which kinds a value may be and what holds of its parts. A value can violate it in
several places, and one violation is reported.

## Main definitions

* `Schema.violations`: all that is wrong with a value, in the order of the schema.
* `Violation.worst`: the one to report.
* `Config.defaults`, `Config.schema`: what the program comes with.
-/

namespace Rulebook

inductive Kind where
  | string | number | integer | boolean | null | object | array
  deriving DecidableEq, Repr

def Kind.name : Kind → String
  | .string => "string"
  | .number => "number"
  | .integer => "integer"
  | .boolean => "boolean"
  | .null => "null"
  | .object => "object"
  | .array => "array"

/-- A floating-point number without a fraction counts as an integer. -/
def Kind.holds : Kind → Value → Bool
  | .string, .str _ => true
  | .number, .int _ => true
  | .number, .float _ => true
  | .integer, .int _ => true
  | .integer, .float x => x.toInt?.isSome
  | .boolean, .bool _ => true
  | .null, .null => true
  | .object, .map _ => true
  | .array, .list _ => true
  | _, _ => false

inductive Schema where
  | mk (kinds : List Kind) (choices : List Value) (properties : List (String × Schema))
    (others : Option Schema) (closed : Bool) (items : Option Schema) (distinct : Bool)
    (least : Option Int)

/-- What a value does that it must not. -/
inductive Offence where
  | kind (expected : List Kind)
  | choice (choices : List Value)
  | extra (keys : List Value)
  | repeated
  | tooSmall (least : Int)

/-- An offence, the value that commits it, and the keys and positions that lead to the value. -/
structure Violation where
  path : List Value
  value : Value
  offence : Offence

namespace Value

mutual

/-- Numbers are equal by value, but a truth value is no number. -/
def equates : Value → Value → Bool
  | .list as, .list bs => equatesAll as bs
  | .map as, .map bs => as.length == bs.length && equatesIn bs as
  | .bool a, .bool b => a == b
  | .bool _, _ => false
  | _, .bool _ => false
  | a, b => a.sameKey b

def equatesAll : List Value → List Value → Bool
  | [], [] => true
  | a :: as, b :: bs => equates a b && equatesAll as bs
  | _, _ => false

/-- Whether all the entries `as` are among `bs`. -/
def equatesIn (bs : Entries) : Entries → Bool
  | [] => true
  | (k, v) :: as =>
    (match bs.find? k with
      | some w => equates v w
      | none => false) && equatesIn bs as

end

def allDistinct : List Value → Bool
  | [] => true
  | v :: vs => !vs.any (equates v) && allDistinct vs

/-- Whether a number lies below `n`. -/
def isBelow (n : Int) : Value → Bool
  | .int m => m < n
  | .float x => x.lt (Binary64.ofInt n)
  | _ => false

end Value

namespace Schema

/-- The schema of a value of certain kinds. -/
def ofKinds (kinds : List Kind) : Schema := .mk kinds [] [] none false none false none

def here (v : Value) (isWrong : Bool) (offence : Offence) : List Violation :=
  if isWrong then [⟨[], v, offence⟩] else []

def under (key : Value) (l : List Violation) : List Violation :=
  l.map fun x => { x with path := key :: x.path }

/-- The entries that no property names. -/
def extras (properties : List (String × Schema)) (es : Entries) : Entries :=
  es.filter fun e => !properties.any fun p => e.1.sameKey (.str p.1)

mutual

def violations (v : Value) : Schema → List Violation
  | .mk kinds choices properties others closed items distinct least =>
    let es := match v with
      | .map es => es
      | _ => []
    let extra := extras properties es
    let keys := (extra.map (·.1)).mergeSort fun a b => decide (a.text ≤ b.text)
    here v (!kinds.isEmpty && !kinds.any (·.holds v)) (.kind kinds) ++
      here v (!choices.isEmpty && !choices.any (·.equates v)) (.choice choices) ++
      propertyViolations es properties ++
      otherViolations extra others ++
      here v (closed && !extra.isEmpty) (.extra keys) ++
      itemViolations v items ++
      (match v with
        | .list vs => here v (distinct && !Value.allDistinct vs) .repeated
        | _ => []) ++
      match least with
      | some n => here v (v.isBelow n) (.tooSmall n)
      | none => []

def propertyViolations (es : Entries) : List (String × Schema) → List Violation
  | [] => []
  | (name, s) :: properties =>
    (match es.field? name with
      | some v => under (.str name) (violations v s)
      | none => []) ++ propertyViolations es properties

def otherViolations (extra : Entries) : Option Schema → List Violation
  | none => []
  | some s => extra.flatMap fun (k, v) => under k (violations v s)

def itemViolations (v : Value) : Option Schema → List Violation
  | none => []
  | some s => match v with
    | .list vs => vs.zipIdx.flatMap fun (w, i) => under (.int i) (violations w s)
    | _ => []

end

end Schema

/-! ## Reports

Which of several violations is reported, and in which words, is up to a validator. This one reports
a violation at the shortest path, of those one at the greatest path, and of those the first. Another
one may choose otherwise: how a configuration is loaded is stated for all validators.
-/

namespace Violation

/-- How two keys compare; keys of different kinds do not. -/
def compareKeys : Value → Value → Option Ordering
  | .str a, .str b => some (compare a b)
  | .bytes a, .bytes b => some (compare (a.map UInt8.toNat) (b.map UInt8.toNat))
  | .date a, .date b => some (compare [a.year, a.month, a.day] [b.year, b.month, b.day])
  | .moment a, .moment b =>
    if a.offset.isSome = b.offset.isSome then some (compare a.instant b.instant) else none
  | a, b => match number? a, number? b with
    | some x, some y => some (match a.keyForm, b.keyForm with
      | .int m, .int n => compare m n
      | _, _ => if x.lt y then .lt else if y.lt x then .gt else .eq)
    | _, _ => none
where
  number? : Value → Option Binary64
    | .bool b => some (Binary64.ofInt b.toNat)
    | .int n => some (Binary64.ofInt n)
    | .float x => some x
    | _ => none

/-- Compares by the first keys that differ. -/
def comparePaths : List Value → List Value → Option Ordering
  | [], [] => some .eq
  | [], _ => some .lt
  | _, [] => some .gt
  | a :: as, b :: bs => if a.sameKey b then comparePaths as bs else compareKeys a b

/-- Whether `y` is to be reported rather than `x`, which comes before it. It cannot be told where
their paths part at keys of different kinds. -/
def prevails (y x : Violation) : Option Bool :=
  if y.path.length ≠ x.path.length then some (y.path.length < x.path.length)
  else (comparePaths y.path x.path).map (· == .gt)

/-- Whether the message can be written: what it quotes has no integer with too many digits. -/
def isWordable (x : Violation) : Bool :=
  match x.offence with
  | .extra keys => Value.allShowable keys
  | _ => x.value.isShowable

/-- The violation, put into words. -/
def worded (x : Violation) : Except Fault Violation :=
  if x.isWordable then .ok x else .error (.badValue (.literal .unwritable))

/-- The violation to report out of `x` and later ones. Each is put into words before it is compared
with those before it. -/
def worst (x : Violation) : List Violation → Except Fault Violation
  | [] => .ok x
  | y :: ys => do
    let y ← y.worded
    match y.prevails x with
    | some true => worst y ys
    | some false => worst x ys
    | none => .error (.shape .kind)

def message (x : Violation) : String :=
  let listed (names : List String) : String := ", ".intercalate names
  match x.offence with
  | .kind expected =>
    s!"{x.value.shown} is not of type " ++ listed (expected.map fun k => Quoted.text k.name)
  | .choice choices => s!"{x.value.shown} is not one of {(Value.list choices).shown}"
  | .extra keys =>
    "Additional properties are not allowed (" ++ listed (keys.map Value.shown) ++
      (if keys.length = 1 then " was" else " were") ++ " unexpected)"
  | .repeated => s!"{x.value.shown} has non-unique elements"
  | .tooSmall least => s!"{x.value.shown} is less than the minimum of {least}"

end Violation

/-! ## The bundled configuration

What holds where a project configures nothing, and what a configuration may look like.
-/

namespace Config

def object (fields : List (String × Value)) : Value := .map (fields.map fun (k, v) => (.str k, v))

/-- The defaults, in the order in which they are listed. -/
def defaults : Entries :=
  [(.str "version", .str "1.0"),
    (.str "targets", .list (Target.all.map fun t => .str t.name)),
    (.str "variables", .map []),
    (.str "composition",
      object [("max_include_depth", .int 10), ("preserve_whitespace", .bool false)])]

/-- Lists of known targets, each named once. -/
def targetsSchema : Schema :=
  .mk [.array] [] [] none false
    (some (.mk [] (Target.all.map fun t => .str t.name) [] none false none false none)) true none

/-- Variables can hold whatever JSON can write. -/
def variablesSchema : Schema :=
  .mk [.object] [] []
    (some (.ofKinds [.string, .number, .boolean, .null, .object, .array])) false none false none

def compositionSchema : Schema :=
  .mk [.object] []
    [("max_include_depth", .mk [.integer] [] [] none false none false (some 0)),
      ("preserve_whitespace", .ofKinds [.boolean])] none true none false none

/-- Entries besides those named here are left alone. -/
def schema : Schema :=
  .mk [.object] []
    [("version", .ofKinds [.string]), ("project_name", .ofKinds [.string]),
      ("targets", targetsSchema), ("variables", variablesSchema),
      ("composition", compositionSchema)] none false none false none

end Config

end Rulebook
