import Rulebook.CommandLine.Switch

/-!
# Requests

What a command line asks for. General switches come before the name of a command; what follows
the name belongs to the command, which has one subject and switches of its own.

## Main definitions

* `Request.read`: the request that the words of a command line make.
-/

namespace Rulebook.CommandLine

inductive Verb where
  | check
  | deps
  | render
  deriving DecidableEq, Repr

namespace Verb

def all : List Verb := [.check, .deps, .render]

def name : Verb → String
  | .check => "check"
  | .deps => "deps"
  | .render => "render"

def ofName? (s : String) : Option Verb := all.find? fun v => v.name = s

/-- What the subject of a command is. -/
def subjectName : Verb → String
  | .check => "expression"
  | .deps | .render => "path"

def switches (v : Verb) : Switches :=
  let common : Switches := [("--json", .json), ("--repo-root", .repoRoot)]
  let help : Switches := [("-h", .help), ("--help", .help)]
  match v with
  | .check | .deps => help ++ common
  | .render =>
    help ++ [("--target", .target), ("-t", .target), ("--preserve-whitespace", .keepSpace)] ++
      common

end Verb

def generalSwitches : Switches :=
  [("-h", .help), ("--help", .help), ("--version", .version), ("--verbose", .verbose),
    ("-v", .verbose)]

structure Command where
  verb : Verb
  subject : String
  json : Bool
  repoRoot : Option String
  /-- The targets that are asked for, in order. -/
  targets : Option (List Target)
  keepSpace : Bool
  deriving DecidableEq, Repr

inductive Request where
  /-- How to use the program, or one command. -/
  | usage (verb : Option Verb)
  | version
  | misuse (verb : Option Verb) (m : Misuse)
  | run (c : Command)
  deriving DecidableEq, Repr

/-- Why reading stops before the end. -/
inductive Stop where
  | help
  | version
  | misuse (m : Misuse)
  deriving DecidableEq, Repr

/-- What has been read of a command. -/
structure Progress where
  subject : Option String
  json : Bool
  repoRoot : Option String
  targets : Option (List Target)
  keepSpace : Bool
  extra : List String

namespace Progress

def start : Progress := ⟨none, false, none, none, false, []⟩

def set (p : Progress) (s : Switch) (value : Option Text) : Except Stop Progress :=
  let given := String.ofList (value.getD [])
  match s with
  | .help => .error .help
  | .version => .error .version
  | .verbose => .ok p
  | .json => .ok { p with json := true }
  | .keepSpace => .ok { p with keepSpace := true }
  | .repoRoot => .ok { p with repoRoot := some given }
  | .target => match Target.ofName? given with
    | some t => .ok { p with targets := some (p.targets.getD [] ++ [t]) }
    | none => .error (.misuse (.notATarget given))

def apply (p : Progress) (s : Word.Setting) : Except Stop Progress := do
  let p ← s.flags.foldlM (fun p flag => p.set flag none) p
  let p ← match s.last with
    | some (last, value) => p.set last value
    | none => .ok p
  .ok { p with extra := p.extra ++ s.extra.toList }

def setting (table : Switches) (word : String) (s : Switch) (attached : Attached) :
    Except Stop Word.Setting :=
  (Word.unfold table word s attached).mapError .misuse

/-- Reads the words after the name of a command. The first plain word is the subject; a separator
next to it does not count. -/
def read (table : Switches) (p : Progress) : List (String × Word) → Except Stop Progress
  | [] => .ok p
  | (word, .switch s attached) :: rest => do
    let found ← setting table word s attached
    match found.last with
    | some (last, none) =>
      if last.takesValue then
        match rest with
        | (next, .plain) :: rest =>
          read table (← p.apply { found with last := some (last, some next.toList) }) rest
        | _ => .error (.misuse (.missingValue word))
      else read table (← p.apply found) rest
    | _ => read table (← p.apply found) rest
  | (word, .separator) :: (next, kind) :: rest =>
    if p.subject.isNone then read table { p with subject := some next } rest
    else read table { p with extra := p.extra ++ [word] } ((next, kind) :: rest)
  | (word, .plain) :: rest =>
    if p.subject.isSome then read table { p with extra := p.extra ++ [word] } rest
    else
      let p := { p with subject := some word }
      match rest with
      | (_, .separator) :: rest => read table p rest
      | rest => read table p rest
  | (word, _) :: rest => read table { p with extra := p.extra ++ [word] } rest
termination_by words => words.length

end Progress

namespace Request

/-- The request that the words after the name of a command make; `extra` words came before it. -/
def readCommand (verb : Verb) (extra words : List String) : Request :=
  let found : Except Stop Progress := do
    let words ← (Word.classifyAll verb.switches words).mapError .misuse
    Progress.start.read verb.switches words
  match found with
  | .error .help => .usage (some verb)
  | .error .version => .version
  | .error (.misuse m) => .misuse (some verb) m
  | .ok p => match p.subject with
    | none => .misuse (some verb) (.missingSubject verb.subjectName)
    | some subject =>
      if extra.isEmpty && p.extra.isEmpty then
        .run ⟨verb, subject, p.json, p.repoRoot, p.targets, p.keepSpace⟩
      else .misuse none (.unrecognized (extra ++ p.extra))

/-- Reads general switches up to the name of a command. -/
def readFrom (extra : List String) : List (String × Word) → Request
  | [] => if extra.isEmpty then .usage none else .misuse none (.unrecognized extra)
  | (word, .switch s attached) :: rest =>
    let set : Except Stop Progress := do
      Progress.start.apply (← Progress.setting generalSwitches word s attached)
    match set with
    | .error .help => .usage none
    | .error .version => .version
    | .error (.misuse m) => .misuse none m
    | .ok p => readFrom (extra ++ p.extra) rest
  | (word, .unknown) :: rest => readFrom (extra ++ [word]) rest
  | [(word, .separator)] => .misuse none (.unrecognized (extra ++ [word]))
  | (word, .separator) :: _ => .misuse none (.unknownCommand word)
  | (word, .plain) :: rest => match Verb.ofName? word with
    | some verb => readCommand verb extra (rest.map (·.1))
    | none => .misuse none (.unknownCommand word)

/-- The request that the words of a command line make. -/
def read (words : List String) : Request :=
  match Word.classifyAll generalSwitches words with
  | .ok words => readFrom [] words
  | .error m => .misuse none m

end Request

end Rulebook.CommandLine
