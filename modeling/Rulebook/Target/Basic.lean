import Rulebook.Text.Blank

/-!
# Targets

The platforms that documents are rendered for. The condition of a block, its audience, says for
which of them it is kept: target names, each barred by a `!` in front of it, between the separators
`|` and `&`. Names that are no target are passed over.
-/

namespace Rulebook

inductive Target where
  | cursor
  | claude
  | factory
  deriving DecidableEq, Repr

namespace Target

def all : List Target := [.cursor, .claude, .factory]

def name : Target → String
  | .cursor => "cursor"
  | .claude => "claude"
  | .factory => "factory"

def ofName? (s : String) : Option Target := all.find? fun t => t.name = s

theorem mem_all (t : Target) : t ∈ all := by cases t <;> decide

theorem ofName?_name (t : Target) : ofName? t.name = some t := by cases t <;> decide

theorem name_of_ofName? {s : String} {t : Target} (h : ofName? s = some t) : t.name = s := by
  simpa using List.find?_some h

/-- The names of all targets, as messages list them. -/
def names : String := ", ".intercalate (all.map name)

end Target

/-! ## Audiences -/

structure Audience where
  named : List Target
  barred : List Target
  /-- One of the named targets is enough; otherwise the target has to be all of them. -/
  alternatives : Bool
  deriving DecidableEq, Repr

namespace Audience

def isSeparator (c : Char) : Bool := c == '|' || c == '&'

/-- The pieces of a condition that are not blank, without the blanks around them. -/
def tokens (s : Text) : List Text :=
  ((Blank.splitWhere isSeparator s).map Blank.trim).filter (!·.isEmpty)

def named? : Text → Option Target
  | '!' :: _ => none
  | s => Target.ofName? (String.ofList s)

def barred? : Text → Option Target
  | '!' :: s => Target.ofName? (String.ofList (Blank.trim s))
  | _ => none

/-- Alternatives are meant only where `|` is the one separator used. -/
def parse (s : Text) : Audience where
  named := (tokens s).filterMap named?
  barred := (tokens s).filterMap barred?
  alternatives := s.contains '|' && !s.contains '&'

/-- Names no target, neither named nor barred. -/
def isEmpty (a : Audience) : Bool := a.named.isEmpty && a.barred.isEmpty

/-- Whether a block for `a` is kept for the target `t`. -/
def admits (a : Audience) (t : Target) : Bool :=
  if a.isEmpty then false
  else if t ∈ a.barred then false
  else if a.named.isEmpty then true
  else if a.alternatives then t ∈ a.named
  else a.named.all (· = t)

end Audience

end Rulebook
