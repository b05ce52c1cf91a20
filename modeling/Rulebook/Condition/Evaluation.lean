import Rulebook.Condition.Parser
import Rulebook.Json.Printer
import Rulebook.Project.Lookup

/-!
# Evaluation

Whether a condition holds for a project. All terms are looked up from left to right, also those
that no longer matter; their truth values are then joined from left to right.

## Main definitions

* `Condition.evaluate`, `Condition.evaluateText`: the evaluation of an expression and of its text.
* `Inclusion.decide`: whether a document with that metadata takes part.
-/

namespace Rulebook

/-! ## Comparison text -/

def Json.Unwritable.fault : Json.Unwritable → Fault
  | .kind => .shape .kind
  | .digits => .badValue (.literal .unwritable)

/-- The text that a condition compares with a value: `true`, `false` and `null`, numbers without a
needless fraction, containers as compact JSON, text as it is. Fails for a container that JSON cannot
write, and for integers with too many digits. -/
def Value.comparand : Value → Except Json.Unwritable String
  | .bool b => .ok (if b then "true" else "false")
  | .null => .ok "null"
  | .int n => Json.integerLiteral n
  | .float x => match x.toInt? with
    | some n => .ok (toString n)
    | none => .ok (Shortest.text x)
  | .list items => Json.compact (.list items)
  | .map entries => Json.compact (.map entries)
  | .set members =>
    if members.all (fun | .int n => Literal.isWritable n | _ => true) then
      .ok (Value.set members).text
    else .error .digits
  | v => .ok v.text

/-! ## Conditions -/

namespace Condition

/-- Whether a term holds, given what its identifier stands for. A value that is missing compares
as false. -/
def holds (t : Term) (a : Answer) : Except Failure Bool :=
  let signed (b : Bool) : Bool := if t.negated then !b else b
  match t.test, a.value with
  | none, _ => .ok (signed a.found)
  | some _, none => .ok (signed false)
  | some (comparison, text), some value => match value.comparand with
    | .ok shown => .ok (signed (comparison.holds shown text))
    | .error e => .error (.fault e.fault)

def truth (p : Project) (v : View) (t : Term) : Inquiry Failure Bool := do
  let a ← p.lookup v t.identifier
  .ofExcept (holds t a)

/-- The truth values of terms, each with what came before it. -/
def truths (p : Project) (v : View) : List (α × Term) → Inquiry Failure (List (α × Bool))
  | [] => .pure []
  | (a, t) :: more => do
    let b ← truth p v t
    let bs ← truths p v more
    .pure ((a, b) :: bs)

/-- Whether an expression holds. -/
def value (p : Project) (v : View) (e : Expression) : Inquiry Failure Bool := do
  let first ← truth p v e.first
  let rest ← truths p v e.rest
  .pure (foldTruth first rest)

/-- The outcome of an evaluation. -/
structure Evaluation where
  isMatch : Bool
  reason : String
  /-- The identifiers that were looked up. -/
  checked : List String
  error : Option Error

namespace Evaluation

def ofError (e : Error) : Evaluation := ⟨false, e.message, [], some e⟩

def ofValue (e : Expression) (holds : Bool) : Evaluation :=
  ⟨holds, if holds then "All conditions satisfied" else "Condition failed",
    e.terms.map Term.checked, none⟩

end Evaluation

/-- Evaluates an expression that was written `source`. Errors of conditions, and paths that the
system refuses, become part of the outcome; other faults do not. -/
def evaluateAs (source : String) (p : Project) (v : View) (e : Expression) :
    Inquiry Failure Evaluation := fun f =>
  match value p v e f with
  | (.ok b, f) => (.ok (.ofValue e b), f)
  | (.error (.error x), f) => (.ok (.ofError x), f)
  | (.error (.fault (.refused x)), f) =>
    (.ok (.ofError ⟨.manifest "" (.refused source x), source, none⟩), f)
  | (.error x, f) => (.error x, f)

def evaluate (p : Project) (v : View) (e : Expression) : Inquiry Failure Evaluation :=
  evaluateAs e.text p v e

/-- Reads and evaluates a condition. -/
def evaluateText (p : Project) (v : View) (s : Text) : Inquiry Failure Evaluation :=
  match Expression.parse s with
  | .ok e => evaluateAs (String.ofList s) p v e
  | .error e => .pure (.ofError e)

end Condition

/-! ## Documents -/

/-- Whether a document takes part. -/
structure Inclusion where
  isIncluded : Bool
  reason : String
  error : Option Condition.Error

namespace Inclusion

/-- The condition that metadata give; null where they give none. -/
def conditionOf (metadata : Value) : Value := (metadata.field? "when").getD .null

/-- A document takes part unless it has a condition that does not hold. A condition that is no text
is an error, and is quoted there, which fails if it holds an integer with too many digits. -/
def decide (p : Project) (v : View) (metadata : Value) : Inquiry Condition.Failure Inclusion :=
  let unconditional := ⟨true, "No condition provided, defaulting to include", none⟩
  match conditionOf metadata with
  | .null => .pure unconditional
  | .str s =>
    if Blank.isAllBlank s.toList then .pure unconditional
    else do
      let outcome ← Condition.evaluateText p v s.toList
      .pure ⟨outcome.isMatch, outcome.reason, outcome.error⟩
  | w =>
    let e : Condition.Error := ⟨.conditionKind w.kindName, w.text, none⟩
    if w.isShowable then .pure ⟨false, e.message, some e⟩
    else .fail (.fault (.badValue (.literal .unwritable)))

end Inclusion

end Rulebook
