import Rulebook.File.Tree
import Rulebook.Value.Basic

/-!
# Traces of expansion

What happened while directives were expanded, in order, with the text or the error that came out.
The steps taken before an error stay on record.
-/

namespace Rulebook.Include

/-! ## Errors

Why a directive cannot be replaced: its target, the file that holds it, and the cause.
-/

inductive Cause where
  /-- The target is being expanded already; the chain leads from it back to it. -/
  | circular (chain : List Path)
  | tooDeep (limit : Nat)
  | notFound
  | unreadable (why : File.ReadError)
  deriving DecidableEq, Repr

structure Error where
  cause : Cause
  /-- The path as the directive has it. -/
  written : String
  target : Path
  source : Path
  deriving DecidableEq, Repr

namespace Error

def ofRead (why : File.ReadError) : Cause :=
  match why with
  | .refused ⟨.notFound, _⟩ => .notFound
  | why => .unreadable why

def message (e : Error) : String :=
  match e.cause with
  | .circular chain => "Circular include detected: " ++ " -> ".intercalate (chain.map Path.text)
  | .tooDeep limit => s!"Include depth exceeded {limit} at {e.written}"
  | .notFound => s!"Include file not found: {e.written} (resolved to {e.target.text})"
  | .unreadable why => s!"Cannot read include {e.written}: {why.message}"

/-- The machine-readable kind of the error. -/
def code (e : Error) : String :=
  match e.cause with
  | .circular _ => "CIRCULAR_INCLUDE"
  | .tooDeep _ => "MAX_DEPTH_EXCEEDED"
  | .notFound => "FILE_NOT_FOUND"
  | .unreadable _ => "READ_ERROR"

/-- The class under which reports list the error. -/
def className (e : Error) : String :=
  match e.cause with
  | .circular _ => "CircularIncludeError"
  | .tooDeep _ => "MaxIncludeDepthError"
  | .notFound => "IncludeNotFoundError"
  | .unreadable _ => "IncludeReadError"

def chain? (e : Error) : Option (List Path) :=
  match e.cause with
  | .circular chain => some chain
  | _ => none

def limit? (e : Error) : Option Nat :=
  match e.cause with
  | .tooDeep limit => some limit
  | _ => none

/-- The details that a report gives. -/
def context (e : Error) : Entries :=
  [(.str "code", .str e.code), (.str "include_path", .str e.target.text),
    (.str "source_file", .str e.source.text)] ++
    (e.chain?.map fun l => (.str "chain", .list (l.map fun p => .str p.text))).toList ++
    (e.limit?.map fun n => (.str "max_depth", .int n)).toList

end Error

/-! ## Traces -/

inductive Step where
  /-- The file was read and its own directives come next. -/
  | entered (target : Path)
  /-- The file, named as `written`, was put in the place of its directive. -/
  | spliced (written : String) (target : Path)
  deriving DecidableEq, Repr

structure Traced (α : Type) where
  steps : List Step
  result : Except Error α

namespace Traced

def pure (a : α) : Traced α := ⟨[], .ok a⟩

def fail (e : Error) : Traced α := ⟨[], .error e⟩

def note (s : Step) : Traced Unit := ⟨[s], .ok ()⟩

def bind (x : Traced α) (f : α → Traced β) : Traced β :=
  match x.result with
  | .error e => ⟨x.steps, .error e⟩
  | .ok a => ⟨x.steps ++ (f a).steps, (f a).result⟩

instance : Monad Traced where
  pure := pure
  bind := bind

theorem pure_bind (a : α) (f : α → Traced β) : bind (pure a) f = f a := rfl

theorem fail_bind (e : Error) (f : α → Traced β) : bind (fail e) f = fail e := rfl

theorem bind_assoc (x : Traced α) (f : α → Traced β) (g : β → Traced γ) :
    bind (bind x f) g = bind x fun a => bind (f a) g := by
  obtain ⟨steps, result⟩ := x
  cases result with
  | error e => rfl
  | ok a =>
    simp only [bind]
    cases (f a).result with
    | error e => rfl
    | ok b => simp

end Traced

end Rulebook.Include
