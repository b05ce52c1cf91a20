import Rulebook.File.Path
import Rulebook.Text.Quoted
import Rulebook.Text.Utf8

/-!
# File trees

The files and directories that a run sees, and the ways in which looking one up or reading it
fails. Lookup walks the names of a path one by one, so `..` leaves the directory reached so far.

A tree holds regular files and directories only. Links, permissions, special files and changes
while a file is read are left out: whatever is there can be read.

## Main definitions

* `FileTree.locate`: the entry that a path names.
* `View`: a tree seen from a working directory.
-/

namespace Rulebook

/-- What stands at a place below the root. -/
inductive Entry where
  | file (bytes : List UInt8)
  | directory
  deriving DecidableEq, Repr

/-- The names that lead from the root to a place. -/
abbrev Location := List String

/-- Files and directories by location; the root is always a directory. There are no links, no
special files and no permissions. -/
structure FileTree where
  entries : List (Location × Entry)
  deriving Repr

namespace File

inductive Obstacle where
  | notFound
  | notADirectory
  | isADirectory
  | nameTooLong
  deriving DecidableEq, Repr

/-- The operating system refuses a path. -/
structure Error where
  obstacle : Obstacle
  path : Path
  deriving DecidableEq, Repr

def Obstacle.number : Obstacle → Nat
  | .notFound => 2
  | .notADirectory => 20
  | .isADirectory => 21
  | .nameTooLong => 36

def Obstacle.text : Obstacle → String
  | .notFound => "No such file or directory"
  | .notADirectory => "Not a directory"
  | .isADirectory => "Is a directory"
  | .nameTooLong => "File name too long"

def Error.message (e : Error) : String :=
  s!"[Errno {e.obstacle.number}] {e.obstacle.text}: {Quoted.text e.path.text}"

/-- Why a file cannot be read as text. -/
inductive ReadError where
  | refused (e : Error)
  | undecodable (e : Utf8.Error)
  | nullInPath
  deriving DecidableEq, Repr

def ReadError.message : ReadError → String
  | .refused e => e.message
  | .undecodable e => e.message
  | .nullInPath => "embedded null byte"

/-- Names have at most this many bytes. -/
def nameLimit : Nat := 255

/-- Paths have fewer bytes than this. -/
def pathLimit : Nat := 4096

end File

namespace FileTree

open File

def find? (t : FileTree) (l : Location) : Option Entry :=
  if l = [] then some .directory else (t.entries.find? fun e => e.1 = l).map (·.2)

def isDirectory (t : FileTree) (l : Location) : Bool := t.find? l = some .directory

/-- Walks `parts` from the existing place `l`. -/
def walk (t : FileTree) (l : Location) : List String → Except Obstacle Location
  | [] => .ok l
  | part :: parts =>
    if !t.isDirectory l then .error .notADirectory
    else if part = ".." then t.walk l.dropLast parts
    else if nameLimit < part.utf8ByteSize then .error .nameTooLong
    else if (t.find? (l ++ [part])).isNone then .error .notFound
    else t.walk (l ++ [part]) parts

def hasNull (p : Path) : Bool := p.parts.any fun part => part.toList.contains '\x00'

/-- The entry that `p` names from the working directory `cwd`. -/
def locate (t : FileTree) (cwd : Location) (p : Path) : Except Obstacle Entry :=
  if pathLimit ≤ p.text.utf8ByteSize then .error .nameTooLong
  else
    match t.walk (if p.isAbsolute then [] else cwd) p.parts with
    | .error e => .error e
    | .ok l => match t.find? l with
      | some e => .ok e
      | none => .error .notFound

/-- The entry at `p`, none when there is none. A name that is too long is an error. -/
def stat (t : FileTree) (cwd : Location) (p : Path) : Except File.Error (Option Entry) :=
  if hasNull p then .ok none
  else match t.locate cwd p with
    | .ok e => .ok (some e)
    | .error .nameTooLong => .error ⟨.nameTooLong, p⟩
    | .error _ => .ok none

def isFile (t : FileTree) (cwd : Location) (p : Path) : Except File.Error Bool :=
  (t.stat cwd p).map fun e => match e with
    | some (.file _) => true
    | _ => false

def isDir (t : FileTree) (cwd : Location) (p : Path) : Except File.Error Bool :=
  (t.stat cwd p).map (· = some .directory)

def present (t : FileTree) (cwd : Location) (p : Path) : Except File.Error Bool :=
  (t.stat cwd p).map (·.isSome)

def readBytes (t : FileTree) (cwd : Location) (p : Path) : Except ReadError (List UInt8) :=
  if hasNull p then .error .nullInPath
  else match t.locate cwd p with
    | .ok (.file bytes) => .ok bytes
    | .ok .directory => .error (.refused ⟨.isADirectory, p⟩)
    | .error o => .error (.refused ⟨o, p⟩)

/-- The text of a file: strict UTF-8, with every line end made a line feed. -/
def readText (t : FileTree) (cwd : Location) (p : Path) : Except ReadError Text :=
  match t.readBytes cwd p with
  | .error e => .error e
  | .ok bytes => match Utf8.decode bytes with
    | .error e => .error (.undecodable e)
    | .ok s => .ok (Lines.unifyEnds s)

/-- The names directly below `l`. -/
def namesBelow (t : FileTree) (l : Location) : List String :=
  t.entries.filterMap fun (k, _) =>
    if k.length = l.length + 1 && l.isPrefixOf k then k.getLast? else none

/-- The names directly below the directory at `p`, none when there is no directory. -/
def names (t : FileTree) (cwd : Location) (p : Path) : Except File.Error (List String) := do
  if !(← t.isDir cwd p) then .ok []
  else match t.walk (if p.isAbsolute then [] else cwd) p.parts with
    | .ok l => .ok (t.namesBelow l)
    | .error _ => .ok []

/-! ### Changing a tree -/

def put (t : FileTree) (l : Location) (e : Entry) : FileTree :=
  ⟨(l, e) :: t.entries.filter fun x => x.1 ≠ l⟩

/-- Makes the directories on the way to `l`, and `l` itself, where they are missing. -/
def makeDirectories (t : FileTree) (l : Location) : FileTree :=
  (List.range l.length).foldl (fun t k =>
    let here := l.take (k + 1)
    if (t.find? here).isSome then t else t.put here .directory) t

/-- Writes `e` at `l`, with the directories above it. -/
def write (t : FileTree) (l : Location) (e : Entry) : FileTree :=
  match e with
  | .directory => t.makeDirectories l
  | .file _ => (t.makeDirectories l.dropLast).put l e

/-- Removes what stands at `l` and everything below. -/
def remove (t : FileTree) (l : Location) : FileTree :=
  ⟨t.entries.filter fun x => !l.isPrefixOf x.1⟩

end FileTree

/-! ## Views -/

/-- A file tree seen from a working directory, against which relative paths are read. -/
structure View where
  tree : FileTree
  here : Location

namespace View

def directory (v : View) : Path := ⟨.root, v.here⟩

/-- The normal absolute path that `p` names. -/
def absolute (v : View) (p : Path) : Path := v.directory.absolute p

def isFile (v : View) (p : Path) : Except File.Error Bool := v.tree.isFile v.here p

def isDir (v : View) (p : Path) : Except File.Error Bool := v.tree.isDir v.here p

def present (v : View) (p : Path) : Except File.Error Bool := v.tree.present v.here p

def readBytes (v : View) (p : Path) : Except File.ReadError (List UInt8) :=
  v.tree.readBytes v.here p

def readText (v : View) (p : Path) : Except File.ReadError Text := v.tree.readText v.here p

def names (v : View) (p : Path) : Except File.Error (List String) := v.tree.names v.here p

end View

end Rulebook
