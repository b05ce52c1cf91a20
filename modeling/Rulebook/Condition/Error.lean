import Rulebook.Condition.Basic

/-!
# Errors of conditions

Why a condition cannot be read or evaluated. Each error has the fragment it is about and, for a
fault in the text, the offset in that fragment.
-/

namespace Rulebook.Condition

inductive Format where
  | json
  | toml
  | yaml
  | xml
  deriving DecidableEq, Repr

def Format.name : Format → String
  | .json => "JSON"
  | .toml => "TOML"
  | .yaml => "YAML"
  | .xml => "XML"

/-- Why a manifest that exists gives no answer. -/
inductive ManifestFailure where
  | unreadable (file : String) (e : File.ReadError)
  | invalid (format : Format) (file detail : String)
  | notAnObject (file : String)
  | notAMapping (file : String)
  | refused (source : String) (e : File.Error)
  deriving DecidableEq, Repr

/-- Which operand of a connective is missing. -/
inductive Place where
  | before (connective : Connective)
  | between
  | last
  deriving DecidableEq, Repr

inductive Cause where
  | emptyTerm
  | emptyExpression
  | missingOperand (place : Place)
  | missingIdentifier
  | missingName (space : Namespace)
  | missingValue
  | unterminatedQuote
  | afterIdentifier (rest : String)
  | afterValue (rest : String)
  | noComparison (rest : String)
  | noValues (space : Namespace)
  | conditionKind (kind : String)
  | malformedIdentifier
  | unknownNamespace (word : String)
  | noLookup (space : Namespace)
  | manifest (path : String) (why : ManifestFailure)
  deriving DecidableEq, Repr

structure Error where
  cause : Cause
  expression : String
  position : Option Nat
  deriving DecidableEq, Repr

def ManifestFailure.message : ManifestFailure → String
  | .unreadable file e => s!"Cannot read {file}: {e.message}"
  | .invalid format file detail => s!"Invalid {format.name} in {file}: {detail}"
  | .notAnObject file => s!"{file} must contain a JSON object"
  | .notAMapping file => s!"{file} must contain a YAML mapping"
  | .refused source e => s!"I/O error while evaluating {Quoted.text source}: {e.message}"

namespace Error

def message (e : Error) : String :=
  let shown := Quoted.text e.expression
  match e.cause with
  | .emptyTerm => "Empty condition term"
  | .emptyExpression => "Empty condition expression"
  | .missingOperand (.before c) => s!"Missing condition before '{c.text}'"
  | .missingOperand .between => "Missing condition between logical operators"
  | .missingOperand .last => "Trailing logical operator without condition"
  | .missingIdentifier => "Missing identifier after '!'"
  | .missingName space => s!"Missing name after '{space.name}:' in {shown}"
  | .missingValue => s!"Missing value after comparison operator in {shown}"
  | .unterminatedQuote => s!"Unterminated quoted string in {shown}"
  | .afterIdentifier rest => s!"Unexpected text after identifier: {Quoted.text rest}"
  | .afterValue rest => s!"Unexpected text after value: {Quoted.text rest}"
  | .noComparison rest =>
    s!"Unexpected text {Quoted.text rest} in condition {shown}; " ++
      "expected end of term or one of ==, !="
  | .noValues space =>
    "Comparison is only supported for pkg, var namespaces, " ++
      s!"not '{space.name}' in {shown}"
  | .conditionKind kind => s!"'when' must be a string expression, got {kind}"
  | .malformedIdentifier =>
    "Invalid identifier \"" ++ e.expression ++ "\". Expected \"namespace:name\" with " ++
      "namespace one of: " ++ Namespace.knownNames
  | .unknownNamespace word =>
    "Unknown namespace \"" ++ word ++ "\" in \"" ++ e.expression ++ "\". Valid: " ++
      Namespace.knownNames
  | .noLookup space => s!"No lookup for namespace '{space.name}'"
  | .manifest _ why => why.message

/-- The machine-readable kind of the error. -/
def code (e : Error) : String :=
  match e.cause with
  | .noComparison _ | .noValues _ => "INVALID_OPERATOR"
  | .malformedIdentifier | .unknownNamespace _ | .noLookup _ => "UNKNOWN_NAMESPACE"
  | .manifest .. => "MANIFEST_ERROR"
  | _ => "PARSE_ERROR"

/-- The class under which reports list the error. -/
def className (e : Error) : String :=
  match e.cause with
  | .malformedIdentifier | .unknownNamespace _ | .noLookup _ => "UnknownNamespaceError"
  | .manifest .. => "ManifestError"
  | _ => "ConditionParseError"

/-- The path of the manifest to blame, for an error about manifests. -/
def path? (e : Error) : Option String :=
  match e.cause with
  | .manifest path _ => some path
  | _ => none

/-- The details that a report gives. -/
def context (e : Error) : Entries :=
  (e.path?.map fun path => (.str "path", .str path)).toList ++
    [(.str "code", .str e.code), (.str "expression", .str e.expression)] ++
    (e.position.map fun n => (.str "position", .int n)).toList

end Error

/-- A condition fails with an error of its own, or with a fault of another kind. -/
inductive Failure where
  | error (e : Error)
  | fault (f : Fault)
  deriving DecidableEq

end Rulebook.Condition
