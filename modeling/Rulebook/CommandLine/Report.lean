import Rulebook.CommandLine.Request
import Rulebook.Json.Printer

/-!
# Reports

What a run writes to its outputs, and the status it ends with: zero for success, one for a command
that fails, two for a command line that makes no sense.
-/

namespace Rulebook.CommandLine

structure Outcome where
  status : Nat
  output : String
  errors : String
  deriving DecidableEq, Repr

/-- What a command has to say, as data and as lines of text. -/
inductive Report where
  | answer (data : Entries) (lines : List String)
  | failure (code message : String) (context : Option Entries)
  deriving DecidableEq

namespace Report

/-- An answer that says that it is one. -/
def success (data : Entries) (lines : List String) : Report :=
  .answer ((.str "status", .str "success") :: data) lines

def line (s : String) : String := s ++ "\n"

def json (es : Entries) : String := line (Json.pretty (.map es))

/-- The report as JSON or as text. -/
def outcome (asJson : Bool) : Report → Outcome
  | .answer data lines => ⟨0, if asJson then json data else String.join (lines.map line), ""⟩
  | .failure code message context =>
    let data : Entries := [(.str "error", .str code), (.str "message", .str message)] ++
      (context.map fun es => (Value.str "context", Value.map es)).toList
    ⟨1, "", if asJson then json data else line ("Error: " ++ message)⟩

end Report

/-! ### Usage -/

def programName : String := "ai-sync"

def programVersion : String := "0.4.0"

def Switch.valueName : Switch → String
  | .repoRoot => " ROOT"
  | .target => " TARGET"
  | _ => ""

def usageLine (verb : Option Verb) : String :=
  let shown (table : Switches) : String :=
    String.join (table.map fun (name, s) => " [" ++ name ++ s.valueName ++ "]")
  match verb with
  | none => "usage: " ++ programName ++ shown generalSwitches ++ " <command>"
  | some v =>
    "usage: " ++ programName ++ " " ++ v.name ++ shown v.switches ++ " " ++ v.subjectName

def summary : Verb → String
  | .check => "Evaluate a condition expression (e.g. 'npm:react && !file:.env')"
  | .deps => "List files included by a document (in splice order)"
  | .render => "Compose a rule document and render it for each target"

/-- How to use the program, or one command. -/
def usage (verb : Option Verb) : Outcome :=
  let more := match verb with
    | none => Verb.all.map fun v => "  " ++ v.name ++ ": " ++ summary v
    | some v => [summary v]
  ⟨0, String.join ((usageLine verb :: "" :: more).map Report.line), ""⟩

def misuse (verb : Option Verb) (m : Misuse) : Outcome :=
  ⟨2, "", Report.line (usageLine verb) ++ Report.line (s!"{programName}: error: {m.message}")⟩

def version : Outcome := ⟨0, Report.line (s!"{programName} {programVersion}"), ""⟩

end Rulebook.CommandLine
