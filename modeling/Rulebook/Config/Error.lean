import Rulebook.Fault
import Rulebook.Yaml.Error

/-!
# Configuration errors

Why a configuration is refused.
-/

namespace Rulebook.Config

/-- Variables whose names start so configure the program. -/
def variableStart : String := "AI_SYNC_"

/-- What is reported of a configuration that violates its schema: the keys and positions that lead
to what is wrong, and what is wrong with it. -/
structure Complaint where
  path : List Value
  message : String

/-- The path with dots, or a word for the whole. -/
def Complaint.location (x : Complaint) : String :=
  let path := ".".intercalate (x.path.map Value.text)
  if path.isEmpty then "<root>" else path

inductive Error where
  | malformed (file : Path) (p : Yaml.Problem)
  | notAMapping (file : Path)
  | malformedKey (key : String)
  | invalid (x : Complaint)
  | targets (e : BadValue)

namespace Error

def message : Error → String
  | .malformed file p => s!"Invalid YAML in {file.text}: {p.message}"
  | .notAMapping file => s!"{file.text} must contain a YAML mapping"
  | .malformedKey key =>
    s!"Malformed {variableStart}* key: {Quoted.text key}. Use double underscores between parts."
  | .invalid x => s!"Invalid configuration at {x.location}: {x.message}"
  | .targets e => e.message

/-- The details that a report gives. -/
def context : Error → Entries
  | .malformed file _ | .notAMapping file => [(.str "path", .str file.text)]
  | .malformedKey key => [(.str "key", .str key)]
  | .invalid x => [(.str "path", .str x.location)]
  | .targets _ => [(.str "path", .str "targets")]

/-- The class under which reports list the error. -/
def className : String := "ConfigError"

end Error

/-- Loading fails with an error of the configuration, or with a fault of another kind. -/
inductive Failure where
  | error (e : Error)
  | fault (f : Fault)

end Rulebook.Config
