import Rulebook.Manifest.Requirements

/-!
# Mentions of packages

Manifests that are programs or markup, in which packages are found by what mentions of them look
like: `Gemfile`, the build files of Gradle, and the project files of NuGet.
-/

namespace Rulebook

/-! ## Letters without case

ASCII letters compared regardless of case. A few letters beyond ASCII have the case forms of an
ASCII letter and count as that letter.
-/

namespace Caseless

/-- The forms of a small ASCII letter, and any other character as its own only form. -/
def forms (letter : Char) : Text :=
  match letter with
  | 'i' => ['i', 'I', '\u0130', '\u0131']
  | 'k' => ['k', 'K', '\u212A']
  | 's' => ['s', 'S', '\u017F']
  | c => [c, c.toUpper]

/-- What follows `start`, which has no capitals, at the start of `s`. -/
def dropStart? : Text → Text → Option Text
  | [], s => some s
  | _ :: _, [] => none
  | c :: start, d :: s => if d ∈ forms c then dropStart? start s else none

end Caseless

namespace Manifest

open Condition (Failure)

def isQuote (c : Char) : Bool := c == '"' || c == '\''

/-- A text that is not empty, up to a quote. -/
def untilQuote? (p : Char → Bool) (s : Text) : Option (Text × Text) :=
  let text := s.takeWhile p
  match s.drop text.length with
  | c :: rest => if isQuote c && !text.isEmpty then some (text, rest) else none
  | [] => none

/-! ### Gems -/

/-- The gem that the first words after the start of a line ask for. -/
def gem? (s : Text) : Option Text := do
  match ← Search.dropStart? "gem".toList (Blank.trimStart s) with
  | [] => none
  | blank :: rest =>
    if !Blank.isBlank blank then none
    match Blank.trimStart rest with
    | quote :: rest => if isQuote quote then (untilQuote? isPackageChar rest).map (·.1) else none
    | [] => none

def gems (s : Text) : List Text := (s :: Search.after '\n' s).filterMap gem?

def gem (v : View) (root : Path) : Except Failure Dependencies := do
  let s ← text? v (root.child "Gemfile")
  .ok ((gems (s.getD [])).foldl (fun deps name => deps.insert (String.ofList name) none) .empty)

/-! ### Coordinates -/

/-- A group and an artifact, with perhaps a version. -/
structure Coordinate where
  group : Text
  artifact : Text
  version : Option Text
  deriving DecidableEq, Repr

/-- Coordinates in quotes: parts with colons between them. -/
def Coordinate.read? (s : Text) : Option (Coordinate × Text) := do
  match s with
  | [] => none
  | quote :: s =>
    if !isQuote quote then none
    let group := s.takeWhile isPackageChar
    if group.isEmpty then none
    let s ← Search.dropStart? [':'] (s.drop group.length)
    let artifact := s.takeWhile isPackageChar
    if artifact.isEmpty then none
    match s.drop artifact.length with
    | ':' :: s =>
      let (version, rest) ← untilQuote? (!isQuote ·) s
      some (⟨group, artifact, some version⟩, rest)
    | c :: rest => if isQuote c then some (⟨group, artifact, none⟩, rest) else none
    | [] => none

/-- An artifact counts by itself and together with its group. -/
def addCoordinate (deps : Dependencies) (c : Coordinate) : Dependencies :=
  let version := c.version.map String.ofList
  (deps.insert (String.ofList c.artifact) version).insert
    (String.ofList (c.group ++ ':' :: c.artifact)) version

def gradle (v : View) (root : Path) : Except Failure Dependencies := do
  let first ← text? v (root.child "build.gradle")
  let second ← text? v (root.child "build.gradle.kts")
  let found (s : Option Text) : List Coordinate := Search.occurrences Coordinate.read? (s.getD [])
  .ok ((found first ++ found second).foldl addCoordinate .empty)

/-! ### Package references -/

/-- The value of the attribute `name` at the start of `s`. -/
def attributeValue? (name s : Text) : Option (Text × Text) := do
  let rest ← Caseless.dropStart? name s
  match ← Search.dropStart? ['='] rest with
  | [] => none
  | quote :: rest => if isQuote quote then untilQuote? (!isQuote ·) rest else none

/-- The value of the last attribute `name` that begins a word before the tag ends; `previous` is
the character before `s`, and `found` what came before. -/
def lastAttribute (name : Text) (previous : Char) (found : Option (Text × Text)) :
    Text → Option (Text × Text)
  | [] => found
  | c :: s =>
    if c = '>' then found
    else
      let here := if Word.isWord previous then none else attributeValue? name (c :: s)
      lastAttribute name c (here <|> found) s

/-- The value of the attribute `name` in a tag `element` at the start of `s`. -/
def tagAttribute? (element name s : Text) : Option (Text × Text) := do
  match s with
  | '<' :: s =>
    let rest ← Caseless.dropStart? element s
    if rest.head?.any Word.isWord then none
    lastAttribute name '_' none rest
  | _ => none

def references (s : Text) : List Text :=
  Search.occurrences (tagAttribute? "packagereference".toList "include".toList) s ++
    Search.occurrences (tagAttribute? "package".toList "id".toList) s

def addReferences (deps : Dependencies) (s : Text) : Dependencies :=
  (references s).foldl (fun deps name =>
    deps.insert (Ecosystem.nuget.normalName (String.ofList name)) none) deps

def isProjectFile (name : String) : Bool := ".csproj".toList.isSuffixOf name.toList

/-- The project files at `root` in the order of their names. -/
def projectFiles (v : View) (root : Path) : Except File.Error (List Path) := do
  let names := (← v.names root).filter isProjectFile
  .ok ((names.mergeSort fun a b => decide (a ≤ b)).map root.child)

def nuget (v : View) (root : Path) : Except Failure Dependencies := do
  let files ← (projectFiles v root).mapError fun e => .fault (.refused e)
  let texts ← (files ++ [root.child "packages.config"]).mapM (text? v)
  .ok ((texts.filterMap id).foldl addReferences .empty)

end Manifest

end Rulebook
