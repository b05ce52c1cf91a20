import Rulebook.Target.Basic
import Rulebook.Text.Digit
import Rulebook.Text.Search

/-!
# Switches

The words of a command line. A long switch can be cut short as long as one switch is meant, and
can have its value after an equals sign. Short switches can share one hyphen, and the value of the
last one can cling to it. After a bare `--` no word is a switch any more.

## Main definitions

* `Word.classify`: what a word is for a command that has certain switches.
* `Word.unfold`: the switches that one word sets.
-/

namespace Rulebook.CommandLine

inductive Switch where
  | help
  | version
  | verbose
  | json
  | repoRoot
  | target
  | keepSpace
  deriving DecidableEq, Repr

def Switch.takesValue : Switch → Bool
  | .repoRoot | .target => true
  | _ => false

/-- The names of switches, with their hyphens. -/
abbrev Switches := List (String × Switch)

/-- Why a command line makes no sense. -/
inductive Misuse where
  | ambiguous (word : String)
  | needlessValue (word : String)
  | missingValue (word : String)
  | notATarget (word : String)
  | unknownCommand (word : String)
  | missingSubject (name : String)
  | unrecognized (words : List String)
  deriving DecidableEq, Repr

def Misuse.message : Misuse → String
  | .ambiguous word => s!"{word} could mean several options"
  | .needlessValue word => s!"{word} takes no value"
  | .missingValue word => s!"{word} needs a value"
  | .notATarget word => s!"{word} is no target, choose from {Target.names}"
  | .unknownCommand word => s!"{word} is no command"
  | .missingSubject name => s!"{name} is required"
  | .unrecognized words => "unrecognized arguments: " ++ " ".intercalate words

/-- What a word holds besides the name of a switch. -/
inductive Attached where
  | nothing
  /-- The text after an equals sign. -/
  | value (s : Text)
  /-- The text that clings to a short name. -/
  | tail (s : Text)
  deriving DecidableEq, Repr

inductive Word where
  | switch (s : Switch) (attached : Attached)
  | unknown
  | separator
  | plain
  deriving DecidableEq, Repr

namespace Word

def isNegativeNumber (s : Text) : Bool :=
  match s with
  | '-' :: s =>
    let whole := s.takeWhile Digit.isDecimal
    match s.drop whole.length with
    | [] => !whole.isEmpty
    | '.' :: fraction => !fraction.isEmpty && fraction.all Digit.isDecimal
    | _ => false
  | _ => false

/-- The text before the first equals sign, and the one after it. -/
def splitValue (s : Text) : Text × Option Text :=
  match Search.split? ['='] s with
  | some (name, value) => (name, some value)
  | none => (s, none)

def attached : Option Text → Attached
  | none => .nothing
  | some value => .value value

/-- The switches that a word with a hyphen in front can stand for, other than by its full name. -/
def candidates (table : Switches) (word : Text) : List Word :=
  match word with
  | '-' :: '-' :: _ =>
    let (start, value) := splitValue word
    table.filterMap fun (name, s) =>
      if start.isPrefixOf name.toList then some (.switch s (attached value)) else none
  | '-' :: c :: tail =>
    table.filterMap fun (name, s) =>
      if name.toList = ['-', c] then some (.switch s (.tail tail)) else none
  | _ => []

/-- What a word is, before a separator. -/
def classify (table : Switches) (word : String) : Except Misuse Word :=
  let s := word.toList
  let (name, value) := splitValue s
  if s.head? ≠ some '-' then .ok .plain
  else match table.lookup word with
    | some found => .ok (.switch found .nothing)
    | none =>
      if s.length = 1 then .ok .plain
      else match value, table.lookup (String.ofList name) with
        | some value, some found => .ok (.switch found (.value value))
        | _, _ => match candidates table s with
          | [found] => .ok found
          | [] => .ok (if isNegativeNumber s || s.contains ' ' then .plain else .unknown)
          | _ => .error (.ambiguous word)

/-- Words with what they are. -/
def classifyAll (table : Switches) : List String → Except Misuse (List (String × Word))
  | [] => .ok []
  | word :: words =>
    if word = "--" then .ok ((word, .separator) :: words.map fun w => (w, .plain))
    else do
      let first ← classify table word
      let rest ← classifyAll table words
      .ok ((word, first) :: rest)

/-- The switches that one word sets: first those without a value, then the last one, with its
value if it is in the word. Letters that name no switch are left over. -/
structure Setting where
  flags : List Switch
  last : Option (Switch × Option Text)
  extra : Option String
  deriving DecidableEq, Repr

/-- Short switches that share the hyphen of `s`. -/
def letters (table : Switches) (word : String) (s : Switch) : Text → Except Misuse Setting
  | [] => .ok ⟨[], some (s, none), none⟩
  | c :: rest =>
    if s.takesValue then .ok ⟨[], some (s, some (c :: rest)), none⟩
    else if c = '-' then .error (.needlessValue word)
    else match table.lookup (String.ofList ['-', c]) with
      | none => .ok ⟨[s], none, some (String.ofList ('-' :: c :: rest))⟩
      | some next => match rest with
        | '=' :: value =>
          if next.takesValue then .ok ⟨[s], some (next, some value), none⟩
          else .error (.needlessValue word)
        | rest => do
          let more ← letters table word next rest
          .ok { more with flags := s :: more.flags }

def unfold (table : Switches) (word : String) (s : Switch) : Attached → Except Misuse Setting
  | .nothing => .ok ⟨[], some (s, none), none⟩
  | .value value =>
    if s.takesValue then .ok ⟨[], some (s, some value), none⟩ else .error (.needlessValue word)
  | .tail tail => letters table word s tail

end Word

end Rulebook.CommandLine
