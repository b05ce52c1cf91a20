import Rulebook.Condition.Evaluation
import Rulebook.Document.Frontmatter
import Rulebook.Document.Template
import Rulebook.Include.Expansion
import Rulebook.Target.Selection

/-!
# Composing documents

A document is taken apart, its includes are expanded, its condition decides whether it takes part,
and if it does its body is rendered for each target.

## Main definitions

* `Composer.compose`: one document.
* `Composer.composeAll`: several documents, up to the first that fails.
-/

namespace Rulebook

/-! ## Errors

Why a document cannot be composed. An error of its includes or of its condition is the cause of
the error of the document.
-/

namespace Composition

inductive Reason where
  | unreadable (e : File.ReadError)
  | metadata (e : BadValue)
  | includes (e : Include.Error)
  | condition (e : Condition.Error)
  deriving DecidableEq

structure Error where
  path : Path
  reason : Reason
  deriving DecidableEq

namespace Error

def message (e : Error) : String :=
  match e.reason with
  | .unreadable why => s!"Cannot read {e.path.text}: {why.message}"
  | .metadata why => s!"{e.path.text}: {why.message}"
  | .includes why => s!"{e.path.text}: {why.message}"
  | .condition why => s!"{e.path.text}: invalid 'when' condition: {why.message}"

def report (message className : String) (context : Entries) : Value :=
  .map [(.str "message", .str message), (.str "code", .str className),
    (.str "context", .map context)]

/-- The report of the error behind this one. -/
def cause? (e : Error) : Option Value :=
  match e.reason with
  | .unreadable _ | .metadata _ => none
  | .includes why => some (report why.message why.className why.context)
  | .condition why => some (report why.message why.className why.context)

/-- The details that a report gives. -/
def context (e : Error) : Entries :=
  (.str "path", .str e.path.text) :: (e.cause?.map fun v => (Value.str "cause", v)).toList

/-- The class under which reports list the error. -/
def className : String := "DocumentError"

end Error

/-- Composing fails with an error of the document, or with a fault of another kind. -/
inductive Failure where
  | error (e : Error)
  | fault (f : Fault)
  deriving DecidableEq

end Composition

/-! ## Composition -/

structure Composer where
  project : Project
  targets : List Target
  depthLimit : Nat
  keepSpace : Bool

/-- A document after composition. There are no renderings if it does not take part. -/
structure Composition where
  path : Path
  metadata : Entries
  inclusion : Inclusion
  included : List Path
  body : Text
  renderings : List (Target × Text)

namespace Composition

/-- What a fault or an error met in an inquiry means for the document at `path`. -/
def Failure.ofCondition (path : Path) : Condition.Failure → Failure
  | .error e => .error ⟨path, .condition e⟩
  | .fault f => .fault f

/-- The text of a document. -/
def readText (v : View) (path : Path) : Except Failure Text :=
  (v.readText path).mapError fun e => match e with
    | .nullInPath => .fault (.badValue .nullInPath)
    | e => .error ⟨path, .unreadable e⟩

/-- Takes a document apart. A bad value in the metadata is an error of the document. -/
def parse (path : Path) (s : Text) : Except Failure Document :=
  (Document.parse s).mapError fun f => match f with
    | .badValue e => .error ⟨path, .metadata e⟩
    | f => .fault f

end Composition

namespace Composer

open Rulebook.Composition (Failure)

/-! ### Making a composer -/

/-- A number, or what can be read as one, without its fraction. -/
def integerOf : Value → Except Fault Int
  | .int n => .ok n
  | .bool b => .ok b.toNat
  | .float x => match x.form, x.truncate? with
    | .nan, _ => .error (.badValue .nanAsInteger)
    | _, some n => .ok n
    | _, none => .error (.shape .range)
  | .str s => (Literal.integer 10 s.toList).mapError fun e => .badValue (.literal e)
  | _ => .error (.shape .kind)

/-- Targets that are given one by one; all of them where none are given. -/
def targetsOf (v : Value) : Except Fault (List Target) := do
  let items ← match v with
    | .null => .ok Value.null
    | v => .list <$> v.elements
  (Target.selection items).mapError .badValue

/-- A composer for a project. -/
def make (project : Project) (targets : Value) (depthLimit : Int) (keepSpace : Bool) :
    Except Fault Composer := do
  let targets ← targetsOf targets
  let depthLimit ← (Include.limitOf depthLimit).mapError .badValue
  .ok ⟨project, targets, depthLimit, keepSpace⟩

/-- The composer that a configuration describes, for `targets` if they are given. -/
def ofConfig (v : View) (root : Path) (config : Value) (targets : Value) :
    Except Fault Composer := do
  let composition := (← config.get "composition").orEmpty
  let project ← Project.ofVariables v root (← config.get "variables")
  let targets ← if targets = .null then config.get "targets" else .ok targets
  let depth ← composition.get "max_include_depth"
  let limit ← match composition.field? "max_include_depth" with
    | some _ => integerOf depth
    | none => .ok Include.defaultLimit
  let keepSpace ← composition.get "preserve_whitespace"
  make project targets limit keepSpace.isGiven

/-! ### Composing -/

def render (c : Composer) (body : Text) (t : Target) : Text :=
  (Template.parse body).render t c.keepSpace

/-- Expands the includes of a document, which are named from its directory. -/
def expand (c : Composer) (v : View) (path : Path) (content : Text) :
    Except Failure Include.Resolution := do
  let r ← (Include.resolve v.readText c.depthLimit (v.absolute path) (v.absolute path.parent)
    content).mapError .fault
  match r.error with
  | some e => .error (.error ⟨path, .includes e⟩)
  | none => .ok r

/-- Composes the document at `path`, from `text` if it is given. -/
def compose (c : Composer) (v : View) (path : Path) (text : Option Text) :
    Inquiry Failure Composition := do
  let s ← .ofExcept (match text with
    | some s => .ok s
    | none => Composition.readText v path)
  let document ← .ofExcept (Composition.parse path s)
  let r ← .ofExcept (c.expand v path document.body)
  let inclusion ← (Inclusion.decide c.project v (.map document.metadata)).mapError
    (Failure.ofCondition path)
  match inclusion.error with
  | some e => .fail (.error ⟨path, .condition e⟩)
  | none =>
    .pure {
      path
      metadata := document.metadata
      inclusion
      included := r.included
      body := r.content
      renderings :=
        if inclusion.isIncluded then c.targets.map fun t => (t, c.render r.content t) else [] }

/-- Composes documents one after the other, up to the first that fails. -/
def composeAll (c : Composer) (v : View) : List Path → Inquiry Failure (List Composition)
  | [] => .pure []
  | path :: paths => do
    let first ← c.compose v path none
    let rest ← c.composeAll v paths
    .pure (first :: rest)

end Composer

end Rulebook
