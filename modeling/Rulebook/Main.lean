import Rulebook.CommandLine.Run

/-!
# The program

Takes a snapshot of the files that a command can see, runs the command on it and writes what it
reports. The snapshot holds the working directory and the root of the project with all that is
below them, and the files that documents include from elsewhere.
-/

namespace Rulebook.Snapshot

open CommandLine (Request)

/-- The location of an absolute path. -/
def locationOf (path : String) : Location := (Path.ofText path).normalize.parts

def pathOf (l : Location) : String := (Path.mk .root l).text

/-- What stands at a place on the disk. -/
def readEntry (l : Location) : IO (Option Entry) := do
  let file := (← IO.currentDir) / pathOf l
  try
    if ← file.isDir then return some .directory
    return some (.file (← IO.FS.readBinFile file).toList)
  catch _ => return none

/-- Adds a place and everything below it. -/
partial def addBelow (t : FileTree) (l : Location) : IO FileTree := do
  match ← readEntry l with
  | none => return t
  | some (.file bytes) => return t.write l (.file bytes)
  | some .directory =>
    let mut tree := t.write l .directory
    for entry in ← ((← IO.currentDir) / pathOf l).readDir do
      tree ← addBelow tree (l ++ [entry.fileName])
    return tree

/-- Adds the places directly in a directory that mark it as the root of a project. -/
def addMarks (t : FileTree) (l : Location) : IO FileTree := do
  let mut tree := t
  for name in [Project.configDirectory, ".git"] do
    if let some .directory ← readEntry (l ++ [name]) then
      tree := tree.write (l ++ [name]) .directory
  return tree

/-- Adds the files that a text includes, and those that they include in turn. -/
partial def addIncluded (t : FileTree) (directory : Path) (s : Text) : IO FileTree := do
  let mut tree := t
  for d in Directive.find s do
    let target := directory.absolute (Path.ofText (String.ofList d.path))
    if (tree.find? target.parts).isNone then
      if let some (.file bytes) ← readEntry target.parts then
        tree := tree.write target.parts (.file bytes)
        if let .ok inner := Utf8.decode bytes then
          tree ← addIncluded tree target.parent (Lines.unifyEnds inner)
  return tree

/-- The files that a command on `words` can see from the directory `here`. -/
def take (here : Location) (words : List String) : IO FileTree := do
  let mut tree ← addBelow ⟨[]⟩ here
  for k in List.range here.length do
    tree ← addMarks tree (here.take k)
  let .run c := Request.read words | return tree
  if let .ok root := c.root ⟨tree, here⟩ then
    if !here.isPrefixOf root.parts then tree ← addBelow tree root.parts
  let document := (View.mk tree here).absolute c.path
  if let some (.file bytes) ← readEntry document.parts then
    tree := tree.write document.parts (.file bytes)
  for (l, entry) in tree.entries do
    if let .file bytes := entry then
      if Directive.suffix.isSuffixOf (l.getLast?.getD "").toList then
        if let .ok s := Utf8.decode bytes then
          tree ← addIncluded tree (Path.mk .root l.dropLast) (Lines.unifyEnds s)
  return tree

/-- One variable of the environment, written with an equals sign. -/
def variableOf (s : Text) : Option (String × String) :=
  (Search.split? ['='] s).map fun (name, value) => (String.ofList name, String.ofList value)

/-- The environment of the running process. -/
def environment : IO Config.Environment := do
  try
    let bytes := (← IO.FS.readBinFile "/proc/self/environ").toList
    match Utf8.decode bytes with
    | .ok s => return (Blank.splitWhere (· == '\x00') s).filterMap variableOf
    | .error _ => return []
  catch _ => return []

def faultText : Fault → String
  | .badValue e => e.message
  | .refused e => e.message
  | .undecodable e => e.message
  | .shape _ => "data of an unexpected shape"

end Rulebook.Snapshot

open Rulebook in
def main (words : List String) : IO UInt32 := do
  let here := Snapshot.locationOf (← IO.currentDir).toString
  let tree ← Snapshot.take here words
  match CommandLine.run ⟨tree, here⟩ (← Snapshot.environment) words with
  | .ok outcome =>
    IO.print outcome.output
    IO.eprint outcome.errors
    return outcome.status.toUInt32
  | .error f =>
    IO.eprintln (Snapshot.faultText f)
    return 1
