import Rulebook.Config.Environment
import Rulebook.Config.Schema
import Rulebook.Target.Selection
import Rulebook.Yaml.Value

/-!
# Loading the configuration

The defaults, the configuration file of the project and the environment, each over the one
before, checked against the schema, with the selected targets in normal form.

## Main definitions

* `Project.findRoot`: the root of the project that holds a directory.
* `Config.Tools.load`: the configuration of a project, for any reader of YAML and any validator.
* `Config.load`: the one that the program loads.
-/

namespace Rulebook

/-! ## The project root

The root of a project is the nearest directory above a start that holds a directory `.ai` or
anything named `.git`, and the start itself when there is none.
-/

namespace Project

def configDirectory : String := ".ai"

def isRoot (v : View) (p : Path) : Except File.Error Bool := do
  if ← v.isDir (p.child configDirectory) then .ok true else v.present (p.child ".git")

def firstRoot (v : View) (start : Path) : List Path → Except File.Error Path
  | [] => .ok start
  | p :: ps => do if ← isRoot v p then .ok p else firstRoot v start ps

/-- The directory that `start` names, by default the working directory. -/
def resolveStart (v : View) (start : String) : Except Fault Path :=
  let origin := v.directory.resolve (Path.ofText start)
  if FileTree.hasNull origin then .error (.badValue .nullInStart) else .ok origin

/-- The root of the project that holds the start. -/
def findRoot (v : View) (start : String) : Except Fault Path := do
  let origin ← resolveStart v start
  (firstRoot v origin origin.ancestry).mapError .refused

end Project

/-! ## The configuration -/

namespace Config

def fileName : String := "config.yaml"

/-- The configuration file of the project at `root`. -/
def fileOf (root : Path) : Path := (root.child Project.configDirectory).child fileName

/-- What loading is built on: a reader of YAML, which decodes and reads the bytes of an open file,
and a validator, which reports one violation of a schema, if there is any. Both can also fail in a
way of their own, which is no error of the configuration. -/
structure Tools where
  yaml : List UInt8 → Except Yaml.Error Linked
  validator : Schema → Value → Except Fault (Option Complaint)

namespace Tools

section Load

variable (t : Tools)

/-- The entries of a configuration file, none when there is no such file. -/
def readFile (v : View) (file : Path) : Except Failure Links := do
  if !(← (v.present file).mapError fun e => .fault (.refused e)) then .ok []
  else
    let bytes ← (v.readBytes file).mapError fun e => .fault (Fault.ofRead e)
    match t.yaml bytes with
    | .ok (.plain .null) => .ok []
    | .ok (.map _ es) => .ok es
    | .ok _ => .error (.error (.notAMapping file))
    | .error (.malformed p) => .error (.error (.malformed file p))
    | .error (.fault f) => .error (.fault f)

/-- Refuses a configuration that violates the schema. The way to what is wrong is written out, which
fails where it leads through an integer with too many digits. -/
def validate (es : Entries) : Except Failure Unit := do
  match ← (t.validator schema (.map es)).mapError .fault with
  | none => .ok ()
  | some x =>
    if Value.allShowable x.path then .error (.error (.invalid x))
    else .error (.fault (.badValue (.literal .unwritable)))

end Load

/-- Reads a file as a stream of text. All of it is decoded before any of it is read, so a byte that
does not decode counts over an error of syntax in front of it. A reader that decodes in pieces can
tell the two apart. -/
def readStream (bytes : List UInt8) : Except Yaml.Error Linked := do
  let s ← (Utf8.decodeStream bytes).mapError fun e => .fault (.undecodable e)
  Yaml.readLinked (Lines.unifyEnds s)

/-- Of several violations the one to report is put into words. -/
def report (s : Schema) (v : Value) : Except Fault (Option Complaint) :=
  match s.violations v with
  | [] => .ok none
  | x :: xs => do
    let x ← (← x.worded).worst xs
    .ok (some ⟨x.path, x.message⟩)

/-- The tools of the program. -/
def standard : Tools := ⟨readStream, report⟩

end Tools

/-- The selected targets take the place of what was configured. -/
def normalizeTargets (es : Entries) : Except Failure Entries :=
  match Target.selection ((es.field? "targets").getD .null) with
  | .ok targets => .ok (es.insert (.str "targets") (.list (targets.map fun t => .str t.name)))
  | .error e => .error (.error (.targets e))

/-- The configuration of the project at `root`, checked against the schema if `checked`. -/
def Tools.load (t : Tools) (v : View) (env : Environment) (root : Path) (checked : Bool) :
    Except Failure Entries := do
  let es ← t.readFile v (fileOf root)
  let es ← applyEnvironment (Links.merge (Links.ofEntries defaults) es) env
  let es := es.bare
  if checked then t.validate es
  normalizeTargets es

def readFile (v : View) (file : Path) : Except Failure Links := Tools.standard.readFile v file

def validate (es : Entries) : Except Failure Unit := Tools.standard.validate es

def load (v : View) (env : Environment) (root : Path) (checked : Bool) : Except Failure Entries :=
  Tools.standard.load v env root checked

end Config

end Rulebook
