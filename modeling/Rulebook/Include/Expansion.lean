import Rulebook.Document.Frontmatter
import Rulebook.Fault
import Rulebook.Include.Directive
import Rulebook.Include.Trace

/-!
# Expansion of includes

Every directive of a document is replaced by the body of its target, whose own directives have
been replaced before. The directives of the document are read from a base directory, those of a
target from the directory of the target.

At each directive a target that is being expanded already is refused first, then one that lies too
deep, and only then is it read.

## Main definitions

* `Include.expand`: a body with all its directives replaced.
* `Include.resolve`: the same for a whole document, whose frontmatter is not looked at.
-/

namespace Rulebook.Include

/-- The files that are being expanded, innermost first, and the directory in which the innermost
one looks for its targets. -/
structure Nesting where
  file : Path
  outer : List Path
  directory : Path
  deriving DecidableEq, Repr

namespace Nesting

def files (n : Nesting) : List Path := n.file :: n.outer

def enter (n : Nesting) (target : Path) : Nesting := ⟨target, n.files, target.parent⟩

/-- The way from the place where `target` is being expanded back to it. -/
def cycle (n : Nesting) (target : Path) : List Path :=
  target :: (n.files.takeWhile (· ≠ target)).reverse ++ [target]

end Nesting

/-- Puts what `expansion` makes of each directive in its place, from `offset` on. -/
def splice (expansion : Directive → Traced Text) (body : Text) (offset : Nat) :
    List Directive → Traced Text
  | [] => pure (body.drop offset)
  | d :: ds => do
    let inner ← expansion d
    let rest ← splice expansion body d.stop ds
    pure ((body.take d.start).drop offset ++ inner ++ rest)

def target (nesting : Nesting) (d : Directive) : Path :=
  nesting.directory.absolute (Path.ofText (String.ofList d.path))

def fault (nesting : Nesting) (d : Directive) (cause : Cause) : Error :=
  ⟨cause, String.ofList d.path, target nesting d, nesting.file⟩

/-- What takes the place of one directive; `deeper` expands the body of its target, and is missing
where the target lies too deep. -/
def expandOne (read : Path → Except File.ReadError Text) (limit : Nat)
    (deeper : Option (Nesting → Text → Traced Text)) (nesting : Nesting) (d : Directive) :
    Traced Text :=
  let file := target nesting d
  if file ∈ nesting.files then .fail (fault nesting d (.circular (nesting.cycle file)))
  else match deeper with
    | none => .fail (fault nesting d (.tooDeep limit))
    | some expandBody => match read file with
      | .error why => .fail (fault nesting d (Error.ofRead why))
      | .ok text => do
        Traced.note (.entered file)
        let inner ← expandBody (nesting.enter file) (Frontmatter.body text)
        Traced.note (.spliced (String.ofList d.path) file)
        pure inner

/-- The body of the innermost file with its directives replaced, `depth` more levels deep.

How deep the host lets calls nest is left out: every limit can be reached. What `read` cannot tell
apart is left out too, such as links, which would lead to one file under several paths. -/
def expand (read : Path → Except File.ReadError Text) (limit : Nat) :
    Nat → Nesting → Text → Traced Text
  | 0, nesting, body => splice (expandOne read limit none nesting) body 0 (Directive.find body)
  | depth + 1, nesting, body =>
    splice (expandOne read limit (some fun n b => expand read limit depth n b) nesting) body 0
      (Directive.find body)

/-- How deep includes may lie where nothing else is said. -/
def defaultLimit : Int := 10

/-- A limit for the depth of includes; at zero there may be none. -/
def limitOf (n : Int) : Except BadValue Nat :=
  if n < 0 then .error .negativeDepth else .ok n.toNat

/-- What becomes of the includes of a document. -/
structure Resolution where
  content : Text
  hasIncludes : Bool
  steps : List Step
  error : Option Error

namespace Resolution

/-- The files that make up the result, each before those that it includes itself. -/
def included (r : Resolution) : List Path :=
  if r.error.isSome then []
  else r.steps.filterMap fun s => match s with
    | .entered target => some target
    | .spliced .. => none

/-- The directives replaced, each after those inside its target, even if a later one fails. -/
def spliced (r : Resolution) : List (String × Path) :=
  r.steps.filterMap fun s => match s with
    | .entered _ => none
    | .spliced written target => some (written, target)

end Resolution

/-- The document `content` of the file `file` with its directives replaced. -/
def resolution (read : Path → Except File.ReadError Text) (limit : Nat) (file base : Path)
    (content : Text) : Resolution :=
  let body := Frontmatter.body content
  if (Directive.find body).isEmpty then ⟨content, false, [], none⟩
  else
    let traced := expand read limit limit ⟨file, [], base⟩ body
    match traced.result with
    | .ok text => ⟨Frontmatter.prologue content ++ text, true, traced.steps, none⟩
    | .error e => ⟨[], true, traced.steps, some e⟩

/-- Resolves the includes of a document. Only a target that is no path at all is a fault of its
own, not an error of the resolution. -/
def resolve (read : Path → Except File.ReadError Text) (limit : Nat) (file base : Path)
    (content : Text) : Except Fault Resolution :=
  let r := resolution read limit file base content
  match r.error with
  | some ⟨.unreadable .nullInPath, _, _, _⟩ => .error (.badValue .nullInPath)
  | _ => .ok r

end Rulebook.Include
