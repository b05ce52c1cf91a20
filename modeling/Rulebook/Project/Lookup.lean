import Rulebook.Manifest.Reader
import Rulebook.Value.Lookup

/-!
# Looking up identifiers

The answers that a project gives: whether it depends on a package, has a file or a directory, and
which value a field of `package.json` or a variable has.

What has been found out about a project is kept. An answer, once found, is given again, whatever
happens to the files; a question that failed is asked anew.

## Main definitions

* `Inquiry`: a computation that adds to the findings, also when it fails in the end.
* `Inquiry.remember`: an answer from the findings, or a new one that is then kept.
* `Project.lookup`: what an identifier stands for.
-/

namespace Rulebook

open Condition (Failure)

/-! ## Findings -/

/-- A question about the presence of a file or directory. -/
structure Place where
  kind : String
  name : String
  deriving DecidableEq, Repr

structure Findings where
  dependencies : List (Ecosystem × Dependencies)
  places : List (Place × Bool)
  /-- The fields of `package.json`. -/
  package : Option Entries

def Findings.empty : Findings := ⟨[], [], none⟩

/-- Computes with findings. What is found stays found if a later step fails. -/
def Inquiry (ε α : Type) : Type := Findings → Except ε α × Findings

namespace Inquiry

def pure (a : α) : Inquiry ε α := fun f => (.ok a, f)

def fail (e : ε) : Inquiry ε α := fun f => (.error e, f)

def ofExcept (x : Except ε α) : Inquiry ε α := fun f => (x, f)

def bind (x : Inquiry ε α) (g : α → Inquiry ε β) : Inquiry ε β := fun f =>
  match x f with
  | (.ok a, f) => g a f
  | (.error e, f) => (.error e, f)

instance : Monad (Inquiry ε) where
  pure := pure
  bind := bind

def mapError (h : ε → δ) (x : Inquiry ε α) : Inquiry δ α := fun f => ((x f).1.mapError h, (x f).2)

/-- The answer that the findings hold; else the one that `find` gives, which is kept. -/
def remember (known : Findings → Option α) (keep : α → Findings → Findings) (find : Except ε α) :
    Inquiry ε α := fun f =>
  match known f with
  | some a => (.ok a, f)
  | none => match find with
    | .ok a => (.ok a, keep a f)
    | .error e => (.error e, f)

theorem pure_bind (a : α) (g : α → Inquiry ε β) : bind (pure a) g = g a := rfl

theorem fail_bind (e : ε) (g : α → Inquiry ε β) : bind (fail e) g = fail e := rfl

theorem bind_assoc (x : Inquiry ε α) (g : α → Inquiry ε β) (h : β → Inquiry ε γ) :
    bind (bind x g) h = bind x fun a => bind (g a) h := by
  funext f
  unfold bind
  cases x f with
  | mk r f' => cases r <;> rfl

theorem remember_of_known {known : Findings → Option α} {keep : α → Findings → Findings}
    {find : Except ε α} {f : Findings} {a : α} (h : known f = some a) :
    remember known keep find f = (.ok a, f) := by simp [remember, h]

end Inquiry

/-! ## Projects -/

/-- A project: where it is, and the variables that are set for it. -/
structure Project where
  root : Path
  vars : Entries

/-- What an identifier stands for: whether it exists, and its value if it can have one. -/
structure Answer where
  found : Bool
  value : Option Value
  deriving DecidableEq

namespace Project

/-- The project at `root`. Variables can be given as a mapping or as a list of pairs. -/
def ofVariables (v : View) (root : Path) (given : Value) : Except Fault Project := do
  .ok ⟨v.absolute root, ← given.orEmpty.toEntries⟩

def dependencies (p : Project) (v : View) (e : Ecosystem) : Inquiry Failure Dependencies :=
  Inquiry.remember (fun f => f.dependencies.lookup e)
    (fun d f => { f with dependencies := (e, d) :: f.dependencies })
    (e.dependencies v p.root)

def hasDependency (p : Project) (v : View) (e : Ecosystem) (name : String) :
    Inquiry Failure Bool := do
  .pure ((← p.dependencies v e).contains (e.normalName name))

/-- Where a name is looked for. It is always taken from the root, even if it starts like an
absolute path. -/
def pathOf (p : Project) (name : String) : Path :=
  p.root.join (Path.ofText (String.ofList (name.toList.dropWhile fun c => c == '/' || c == '\\')))

/-- Whether the place exists. All kinds but `dir` are kinds of files. -/
def hasPlace (p : Project) (v : View) (place : Place) : Inquiry Failure Bool :=
  let path := p.pathOf place.name
  let found := if place.kind = Namespace.dir.name then v.isDir path else v.isFile path
  Inquiry.remember (fun f => f.places.lookup place)
    (fun b f => { f with places := (place, b) :: f.places })
    (found.mapError fun e => .fault (.refused e))

/-- All fields of `package.json`. -/
def packageFields (p : Project) (v : View) : Inquiry Failure Entries :=
  Inquiry.remember (fun f => f.package) (fun es f => { f with package := some es })
    (Manifest.packageFields v p.root)

def packageField (p : Project) (v : View) (path : String) : Inquiry Failure (Option Value) := do
  let es ← p.packageFields v
  .ofExcept (((Value.map es).resolve path).mapError .fault)

def variableValue? (p : Project) (path : String) : Except Fault (Option Value) :=
  (Value.map p.vars).resolve path

/-- What an identifier stands for. -/
def lookup (p : Project) (v : View) (i : Identifier) : Inquiry Failure Answer :=
  match i.space with
  | .package e => do .pure ⟨← p.hasDependency v e i.name, none⟩
  | .file | .dir => do .pure ⟨← p.hasPlace v ⟨i.space.name, i.name⟩, none⟩
  | .pkg => do
    let value ← p.packageField v i.name
    .pure ⟨value.isSome, value⟩
  | .var => do
    let value ← .ofExcept ((p.variableValue? i.name).mapError .fault)
    .pure ⟨value.isSome, value⟩
  | .unknown _ => .fail (.error ⟨.noLookup i.space, i.text, none⟩)

end Project

end Rulebook
