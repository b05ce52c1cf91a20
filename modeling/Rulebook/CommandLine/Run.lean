import Rulebook.CommandLine.Report
import Rulebook.Composition.Composer
import Rulebook.Config.Load

/-!
# Running commands

`check` evaluates a condition for a project, `deps` lists what a document includes, and `render`
composes a document and prints it for each target.

## Main definitions

* `CommandLine.run`: the outcome of a command line, for the files and the environment it sees.
-/

namespace Rulebook.CommandLine

/-- The root of the project that a command is about. -/
def Command.root (c : Command) (v : View) : Except Fault Path :=
  match c.repoRoot with
  | none | some "" => Project.findRoot v ""
  | some given => Project.resolveStart v given

def Command.path (c : Command) : Path := Path.ofText c.subject

/-! ### Check -/

def check (v : View) (root : Path) (config : Entries) (c : Command) : Except Fault Report := do
  let project ← Project.ofVariables v root ((config.field? "variables").getD .null)
  match (Condition.evaluateText project v c.subject.toList .empty).1 with
  | .error (.fault f) => .error f
  | .error (.error e) => .ok (.failure (LowerCase.string e.code) e.message (some e.context))
  | .ok result => match result.error with
    | some e => .ok (.failure (LowerCase.string e.code) e.message (some e.context))
    | none => .ok (.success
        [(.str "expression", .str c.subject), (.str "matches", .bool result.isMatch),
          (.str "reason", .str result.reason),
          (.str "checkedIdentifiers", .list (result.checked.map .str))]
        [(if result.isMatch then "MATCH: " else "NO MATCH: ") ++ c.subject,
          "  reason: " ++ result.reason,
          "  checked: " ++ ", ".intercalate result.checked])

/-! ### Deps -/

/-- The limit that a configuration sets for the depth of includes. -/
def depthLimit (config : Entries) : Except Fault Nat :=
  match ((config.field? "composition").getD .null).field? "max_include_depth" with
  | some limit => Int.toNat <$> Composer.integerOf limit
  | none => .error (.shape .key)

/-- An included file as seen from the root, if it is below it. -/
def shownFrom (v : View) (root file : Path) : String :=
  match Path.relativeTo? root (v.directory.resolve file) with
  | some p => p.text
  | none => file.text

def deps (v : View) (root : Path) (config : Entries) (c : Command) : Except Fault Report :=
  match v.readText c.path with
  | .error .nullInPath => .error (.badValue .nullInPath)
  | .error e => .ok (.failure "not_found" s!"Cannot read {c.path.text}: {e.message}" none)
  | .ok content => do
    let r ← Include.resolve v.readText (← depthLimit config) (v.absolute c.path)
      (v.absolute c.path.parent) content
    match r.error with
    | some e => .ok (.failure (LowerCase.string e.code) e.message (some e.context))
    | none =>
      let files := r.included.map (shownFrom v root)
      .ok (.success
        [(.str "path", .str c.path.text), (.str "includedFiles", .list (files.map .str))]
        (if files.isEmpty then [s!"No includes in {c.path.text}"] else files))

/-! ### Render -/

/-- The configuration with the choices of the command line over it. -/
def chosen (config : Entries) (c : Command) : Entries :=
  if c.keepSpace then Config.setPath config ["composition", "preserve_whitespace"] (.bool true)
  else config

def withoutEnd (s : Text) : Text := Blank.dropEndWhile (· == '\n') s

def composed (d : Composition) : Report :=
  .answer
    [(.str "path", .str d.path.text), (.str "included", .bool d.inclusion.isIncluded),
      (.str "reason", .str d.inclusion.reason),
      (.str "includedFiles", .list (d.included.map fun p => .str p.text)),
      (.str "bodies", .map (d.renderings.map fun (t, s) => (.str t.name, .str (String.ofList s))))]
    (if d.inclusion.isIncluded then
      d.renderings.flatMap fun (t, s) =>
        [s!"===== {t.name} =====", String.ofList (withoutEnd s)]
     else [s!"Skipped {d.path.text}: {d.inclusion.reason}"])

def render (v : View) (root : Path) (config : Entries) (c : Command) : Except Fault Report := do
  let targets := match c.targets with
    | some l => .list (l.map fun t => .str t.name)
    | none => .null
  let composer ← Composer.ofConfig v root (.map (chosen config c)) targets
  match (composer.compose v c.path none .empty).1 with
  | .error (.fault f) => .error f
  | .error (.error e) => .ok (.failure "document_error" e.message (some e.context))
  | .ok d => .ok (composed d)

/-! ### All commands -/

/-- Carries out a command under the configuration of its project, loaded with `t`. -/
def perform (t : Config.Tools) (v : View) (env : Config.Environment) (c : Command) :
    Except Fault Report := do
  let root ← c.root v
  match t.load v env root true with
  | .error (.fault f) => .error f
  | .error (.error e) => .ok (.failure "config_error" e.message (some e.context))
  | .ok config => match c.verb with
    | .check => check v root config c
    | .deps => deps v root config c
    | .render => render v root config c

/-- The outcome of a command line. -/
def run (v : View) (env : Config.Environment) (words : List String) : Except Fault Outcome :=
  match Request.read words with
  | .usage verb => .ok (usage verb)
  | .version => .ok version
  | .misuse verb m => .ok (misuse verb m)
  | .run c => (perform .standard v env c).map (Report.outcome c.json)

end Rulebook.CommandLine
