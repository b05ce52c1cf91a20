import Rulebook.Manifest.Source

/-!
# Manifests of tables

Manifests that list dependencies in tables from names to specifications: `package.json`,
`composer.json`, `Cargo.toml` and `pubspec.yaml`. A later table counts over an earlier one.
-/

namespace Rulebook.Manifest

open Condition (Failure)

/-- A specification that is text is the version. -/
def versionOf : Value → Option String
  | .str s => some s
  | _ => none

/-- Adds the packages of a table; what is no table is passed over. -/
def addTable (e : Ecosystem) (deps : Dependencies) : Value → Dependencies
  | .map es => es.foldl (fun deps (name, spec) =>
      deps.insert (e.normalName name.text) (versionOf spec)) deps
  | _ => deps

/-- Adds tables in order. -/
def addTables (e : Ecosystem) (deps : Dependencies) (tables : List Value) : Dependencies :=
  tables.foldl (addTable e) deps

/-- Whether the names in a table can be written out. A name that is an integer may have too many
digits. -/
def hasNames : Value → Bool
  | .map es => Value.allShowable (Entries.keys es)
  | _ => true

/-- Adds tables in order, if all names in them can be written out. -/
def mergeTables (e : Ecosystem) (deps : Dependencies) (tables : List Value) :
    Except Fault Dependencies :=
  if tables.all hasNames then .ok (addTables e deps tables)
  else .error (.badValue (.literal .unwritable))

/-- The values under several names, null where there is none. -/
def fields (es : Entries) (names : List String) : List Value :=
  names.map fun name => (es.field? name).getD .null

/-- Adds the tables `names` of sections; what is no section is passed over. -/
def mergeSections (e : Ecosystem) (names : List String) (deps : Dependencies)
    (sections : List Value) : Except Fault Dependencies :=
  sections.foldlM (fun deps part => match part with
    | .map es => mergeTables e deps (fields es names)
    | _ => .ok deps) deps

/-! ## Readers -/

section Readers

variable (ps : Parsers) (v : View) (root : Path)

def npmFile : Path := root.child "package.json"

def npm : Except Failure Dependencies := do
  let es ← parsed? v (npmFile root) (jsonObject ps (npmFile root))
  ofFault (mergeTables .npm .empty (fields (es.getD [])
    ["dependencies", "devDependencies", "peerDependencies", "optionalDependencies"]))

def composer : Except Failure Dependencies := do
  let file := root.child "composer.json"
  let es ← parsed? v file (jsonObject ps file)
  ofFault (mergeTables .composer .empty (fields (es.getD []) ["require", "require-dev"]))

def pub : Except Failure Dependencies := do
  let file := root.child "pubspec.yaml"
  let es ← parsed? v file (yamlMapping ps file)
  ofFault (mergeTables .pub .empty (fields (es.getD []) ["dependencies", "dev_dependencies"]))

/-- Adds the packages that `Cargo.toml` lists for the package, for its workspace and for the
platforms that it names. -/
def addCrates (deps : Dependencies) (es : Entries) : Except Fault Dependencies := do
  let section? (name : String) : Value := ((es.field? name).getD .null).orEmpty
  let shared ← (section? "workspace").get "dependencies"
  let deps ← mergeTables .cargo deps
    (fields es ["dependencies", "dev-dependencies", "build-dependencies"] ++ [shared])
  mergeSections .cargo ["dependencies", "dev-dependencies"] deps (← (section? "target").values)

def cargo : Except Failure Dependencies := do
  let file := root.child "Cargo.toml"
  let es ← parsed? v file (tomlTable ps file)
  ofFault (addCrates .empty (es.getD []))

/-- The fields of `package.json`, none when there is no such file. -/
def packageFields : Except Failure Entries := do
  .ok ((← parsed? v (npmFile root) (jsonObject .standard (npmFile root))).getD [])

end Readers

end Rulebook.Manifest
