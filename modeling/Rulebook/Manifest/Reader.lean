import Rulebook.Manifest.Mentions

/-!
# Reading manifests

The dependencies of a project in one ecosystem, from the manifests that the ecosystem has.

## Main definitions

* `Ecosystem.dependenciesBy`: the dependencies as given readers of the formats find them.
* `Ecosystem.dependencies`: those that the program finds.
-/

namespace Rulebook

open Condition (Failure)

namespace Manifest

/-! ## Artifacts

The dependencies and plugins in `pom.xml`, wherever they stand. An artifact counts by itself and
together with its group.
-/

/-- The text of the last child `name`, without the blanks around; empty when there is none. -/
def childText (e : Xml.Element) (name : String) : Text :=
  match e.children.reverse.find? fun child => child.name = name with
  | some child => Blank.trim child.text
  | none => []

def addArtifact (deps : Dependencies) (e : Xml.Element) : Dependencies :=
  let artifact := childText e "artifactId"
  let group := childText e "groupId"
  let version := childText e "version"
  if artifact.isEmpty then deps
  else
    let version := if version.isEmpty then none else some (String.ofList version)
    let deps := deps.insert (String.ofList artifact) version
    if group.isEmpty then deps
    else deps.insert (String.ofList (group ++ ':' :: artifact)) version

def isArtifact (e : Xml.Element) : Bool := e.name = "dependency" || e.name = "plugin"

def maven (ps : Parsers) (v : View) (root : Path) : Except Failure Dependencies := do
  let file := root.child "pom.xml"
  match ← parsed? v file (xmlRoot ps file) with
  | none => .ok .empty
  | some e => .ok ((e.subtree.filter isArtifact).foldl addArtifact .empty)

/-! ## Required modules

The lines of `go.mod`. A requirement is a path and a version, on a line of its own after the
keyword or inside a block that the keyword opens.
-/

/-- A line without its comment and the blanks around. -/
def bareLine (line : Text) : Text :=
  Blank.trim (match Search.split? ['/', '/'] line with
    | some (before, _) => before
    | none => line)

inductive ModuleLine where
  | blockStart
  | blockEnd
  | requirement (words : List Text)
  | other
  deriving DecidableEq, Repr

/-- What a line says, inside or outside a block of requirements. -/
def ModuleLine.of (inBlock : Bool) (line : Text) : ModuleLine :=
  if line.isEmpty then .other
  else if "require (".toList.isPrefixOf line then .blockStart
  else if inBlock && line.head? == some ')' then .blockEnd
  else match Search.dropStart? "require ".toList line with
    | some rest => .requirement (Blank.words rest)
    | none => if inBlock then .requirement (Blank.words line) else .other

/-- Adds the requirements of lines to `deps`. -/
def addModuleLines (inBlock : Bool) (deps : Dependencies) : List Text → Dependencies
  | [] => deps
  | line :: lines =>
    match ModuleLine.of inBlock (bareLine line) with
    | .blockStart => addModuleLines true deps lines
    | .blockEnd => addModuleLines false deps lines
    | .requirement (path :: version :: _) =>
      addModuleLines inBlock (deps.insert (String.ofList path) (some (String.ofList version))) lines
    | _ => addModuleLines inBlock deps lines

def go (v : View) (root : Path) : Except Failure Dependencies := do
  let s ← text? v (root.child "go.mod")
  .ok (addModuleLines false .empty (Lines.logical (s.getD [])))

end Manifest

/-! ## All ecosystems -/

/-- The dependencies of the project at `root`, read with `ps`. -/
def Ecosystem.dependenciesBy (ps : Manifest.Parsers) (e : Ecosystem) (v : View) (root : Path) :
    Except Failure Dependencies :=
  match e with
  | .npm => Manifest.npm ps v root
  | .pip => Manifest.pip ps v root
  | .go => Manifest.go v root
  | .cargo => Manifest.cargo ps v root
  | .composer => Manifest.composer ps v root
  | .gem => Manifest.gem v root
  | .pub => Manifest.pub ps v root
  | .maven => Manifest.maven ps v root
  | .gradle => Manifest.gradle v root
  | .nuget => Manifest.nuget v root

/-- The dependencies of the project at `root`. -/
def Ecosystem.dependencies (e : Ecosystem) (v : View) (root : Path) :
    Except Failure Dependencies :=
  e.dependenciesBy .standard v root

/-- The ecosystem of that name. -/
def Ecosystem.ofName (name : String) : Except Fault Ecosystem :=
  match ofName? name with
  | some e => .ok e
  | none => .error (.shape .key)

end Rulebook
