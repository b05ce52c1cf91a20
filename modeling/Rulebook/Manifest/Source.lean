import Rulebook.Condition.Error
import Rulebook.File.Tree
import Rulebook.Json.Reader
import Rulebook.Manifest.Dependencies
import Rulebook.Toml.Reader
import Rulebook.Value.Access
import Rulebook.Xml.Document
import Rulebook.Yaml.Value

/-!
# Sources of dependencies

Manifests as text and as data. A manifest that does not exist is no failure; one that exists but
cannot be read or understood is an error.

## Main definitions

* `parsed?`: what stands in a manifest, if there is one.
* `Parsers`: readers of JSON, TOML, YAML and XML, on which the readers of manifests are built.
-/

namespace Rulebook.Manifest

open Condition (Failure)

def failure (file : Path) (why : Condition.ManifestFailure) : Failure :=
  .error ⟨.manifest file.text why, "", none⟩

def ofFault (x : Except Fault α) : Except Failure α := x.mapError .fault

/-- The text of a manifest, none when there is no such file. -/
def text? (v : View) (file : Path) : Except Failure (Option Text) :=
  match v.readText file with
  | .ok s => .ok (some s)
  | .error (.refused ⟨.notFound, _⟩) => .ok none
  | .error .nullInPath => .error (.fault (.badValue .nullInPath))
  | .error e => .error (failure file (.unreadable file.name e))

/-- Reads the text of a manifest, if there is one. -/
def parsed? (v : View) (file : Path) (parse : Text → Except Failure α) :
    Except Failure (Option α) := do
  match ← text? v file with
  | none => .ok none
  | some s => some <$> parse s

/-! ## Formats -/

/-- Why a text gives no data: it is malformed, or something else goes wrong. -/
inductive Unparsed where
  | malformed (detail : String)
  | fault (f : Fault)

/-- Readers of the formats in which manifests are written. -/
structure Parsers where
  json : Text → Except Unparsed Value
  toml : Text → Except Unparsed Entries
  yaml : Text → Except Unparsed Value
  xml : Text → Except Unparsed Xml.Element

namespace Parsers

def ofLiteral (e : Literal.Error) : Unparsed := .fault (.badValue (.literal e))

def ofJson : Json.Error → Unparsed
  | .malformed => .malformed Json.Error.malformed.message
  | .numeral e => ofLiteral e

def ofToml : Toml.Error → Unparsed
  | .malformed p => .malformed p.message
  | .numeral e => ofLiteral e

def ofYaml : Yaml.Error → Unparsed
  | .malformed p => .malformed p.message
  | .fault f => .fault f

/-- The readers of the program. -/
def standard : Parsers where
  json s := (Json.read s).mapError ofJson
  toml s := (Toml.read s).mapError ofToml
  yaml s := (Yaml.read s).mapError ofYaml
  xml s := (Xml.read s).mapError fun p => .malformed p.message

end Parsers

/-- Reports a malformed manifest. -/
def reported (format : Condition.Format) (file : Path) : Unparsed → Failure
  | .malformed detail => failure file (.invalid format file.name detail)
  | .fault f => .fault f

section Parse

variable (ps : Parsers) (file : Path) (s : Text)

/-- A JSON object. Blank text is an empty one. -/
def jsonObject : Except Failure Entries :=
  if Blank.isAllBlank s then .ok []
  else match ps.json s with
    | .ok (.map es) => .ok es
    | .ok _ => .error (failure file (.notAnObject file.name))
    | .error e => .error (reported .json file e)

def tomlTable : Except Failure Entries := (ps.toml s).mapError (reported .toml file)

/-- A YAML mapping. What counts as not given is an empty one. -/
def yamlMapping : Except Failure Entries :=
  match ps.yaml s with
  | .ok v => match v.orEmpty with
    | .map es => .ok es
    | _ => .error (failure file (.notAMapping file.name))
  | .error e => .error (reported .yaml file e)

def xmlRoot : Except Failure Xml.Element := (ps.xml s).mapError (reported .xml file)

end Parse

end Rulebook.Manifest
