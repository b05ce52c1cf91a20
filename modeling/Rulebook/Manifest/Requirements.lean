import Rulebook.Manifest.Tables

/-!
# Requirements

What `pip` installs: the lines of `requirements.txt`, and the lists and tables of `pyproject.toml`
and `Pipfile`. A requirement starts with the name of the package.

## Main definitions

* `requirementName?`: the package that a requirement names.
* `pip`: the dependencies from all three files, later ones over earlier ones.
-/

namespace Rulebook.Manifest

open Condition (Failure)

def isPackageChar (c : Char) : Bool :=
  Word.isLetterOrDigit c || c == '.' || c == '_' || c == '-'

/-- The name at the start of a requirement, which begins with a letter or a digit. -/
def requirementName? (requirement : Text) : Option Text :=
  match Blank.trim requirement with
  | [] => none
  | c :: s => if Word.isLetterOrDigit c then some (c :: s.takeWhile isPackageChar) else none

def addRequirement (deps : Dependencies) (requirement : Text) : Dependencies :=
  match requirementName? requirement with
  | some name => deps.insert (Ecosystem.pip.normalName (String.ofList name)) none
  | none => deps

/-- A line without its comment, unless it is blank or an option. -/
def requirementOfLine? (line : Text) : Option Text :=
  match Blank.trim (line.takeWhile (· ≠ '#')) with
  | [] => none
  | '-' :: _ => none
  | s => some s

def addRequirementLines (deps : Dependencies) (s : Text) : Dependencies :=
  ((Lines.logical s).filterMap requirementOfLine?).foldl addRequirement deps

/-- Adds a list of requirements, if all of them can be written out. -/
def addRequirements (deps : Dependencies) (requirements : Value) : Except Fault Dependencies := do
  let items ← requirements.orEmpty.elements
  if Value.allShowable items then
    .ok (items.foldl (fun deps item => addRequirement deps item.text.toList) deps)
  else .error (.badValue (.literal .unwritable))

/-- Adds what `pyproject.toml` requires of packages. -/
def addProject (deps : Dependencies) (es : Entries) : Except Fault Dependencies := do
  let project := ((es.field? "project").getD .null).orEmpty
  let deps ← addRequirements deps (← project.get "dependencies")
  let groups ← (← project.get "optional-dependencies").orEmpty.values
  groups.foldlM addRequirements deps

/-- Adds the tables of Poetry. The interpreter that it lists is no package. -/
def addPoetry (deps : Dependencies) (es : Entries) : Except Fault Dependencies := do
  let tool := ((es.field? "tool").getD .null).orEmpty
  let poetry := (← tool.get "poetry").orEmpty
  let main ← poetry.get "dependencies"
  let dev ← poetry.get "dev-dependencies"
  let deps ← mergeTables .pip deps [main, dev]
  let groups ← (← poetry.get "group").orEmpty.values
  let deps ← mergeSections .pip ["dependencies"] deps groups
  .ok (deps.erase "python")

def pip (ps : Parsers) (v : View) (root : Path) : Except Failure Dependencies := do
  let lines ← text? v (root.child "requirements.txt")
  let deps := addRequirementLines .empty (lines.getD [])
  let projectFile := root.child "pyproject.toml"
  let deps ← match ← parsed? v projectFile (tomlTable ps projectFile) with
    | none => .ok deps
    | some es => ofFault (do addPoetry (← addProject deps es) es)
  let pipfile := root.child "Pipfile"
  let es ← parsed? v pipfile (tomlTable ps pipfile)
  ofFault (mergeTables .pip deps (fields (es.getD []) ["packages", "dev-packages"]))

end Rulebook.Manifest
