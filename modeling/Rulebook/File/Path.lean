import Rulebook.Text.Blank

/-!
# Paths

A path is where it starts and the names it goes through. Reading a path drops empty and `.`
components; only `normalize` cancels `..`, without looking at any file.
-/

namespace Rulebook

/-- Where a path starts. Exactly two slashes are kept apart from one. -/
inductive Origin where
  | here
  | root
  | doubleRoot
  deriving DecidableEq, Repr

structure Path where
  origin : Origin
  parts : List String
  deriving DecidableEq, Repr

namespace Path

def originOf : Text → Origin
  | '/' :: '/' :: '/' :: _ => .root
  | '/' :: '/' :: _ => .doubleRoot
  | '/' :: _ => .root
  | _ => .here

def ofText (s : String) : Path where
  origin := originOf s.toList
  parts := ((Blank.splitWhere (· == '/') s.toList).map String.ofList).filter
    fun part => part ≠ "" && part ≠ "."

def Origin.text : Origin → String
  | .here => ""
  | .root => "/"
  | .doubleRoot => "//"

def text (p : Path) : String :=
  if p = ⟨.here, []⟩ then "." else Origin.text p.origin ++ "/".intercalate p.parts

def isAbsolute (p : Path) : Bool := p.origin ≠ .here

/-- `p` as seen from `base`. -/
def join (base p : Path) : Path :=
  if p.isAbsolute then p else ⟨base.origin, base.parts ++ p.parts⟩

def child (p : Path) (name : String) : Path := ⟨p.origin, p.parts ++ [name]⟩

/-- Without the last name. -/
def parent (p : Path) : Path := ⟨p.origin, p.parts.dropLast⟩

def name (p : Path) : String := p.parts.getLast?.getD ""

/-- Adds one name, last name first, to names without `..` but at the start of a relative path. -/
def step (absolute : Bool) (reversed : List String) (part : String) : List String :=
  if part ≠ ".." then part :: reversed
  else match reversed with
    | [] => if absolute then [] else [".."]
    | last :: rest => if last = ".." then ".." :: reversed else rest

/-- Cancels each `..` with the name before it; above the root there is only the root. -/
def normalize (p : Path) : Path :=
  ⟨p.origin, (p.parts.foldl (step p.isAbsolute) []).reverse⟩

/-- The normal absolute path that `p` names from the directory `base`. -/
def absolute (base p : Path) : Path := (base.join p).normalize

/-- As `absolute`, with two slashes at the start taken for one. -/
def resolve (base p : Path) : Path := ⟨.root, (absolute base p).parts⟩

/-- The path and the directories above it, nearest first. -/
def ancestry (p : Path) : List Path :=
  (List.range (p.parts.length + 1)).map fun k => ⟨p.origin, p.parts.take (p.parts.length - k)⟩

/-- The rest of `p` below `base`. -/
def relativeTo? (base p : Path) : Option Path :=
  if p.origin = base.origin && base.parts.isPrefixOf p.parts then
    some ⟨.here, p.parts.drop base.parts.length⟩
  else none

end Path

end Rulebook
