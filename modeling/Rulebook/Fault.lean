import Rulebook.File.Tree
import Rulebook.Number.Literal
import Rulebook.Target.Basic
import Rulebook.Value.Display

/-!
# Faults

Failures that no part of the program takes for its own: a value that cannot be used as it stands,
data of a shape that its reader does not provide for, and what the operating system refuses.
-/

namespace Rulebook

/-- A value of the right kind that cannot be used. -/
inductive BadValue where
  | literal (e : Literal.Error)
  | calendar (e : Calendar.Error)
  | nullInPath
  | nullInStart
  | codePoint
  | nanAsInteger
  | targetsNotAList (kind : String)
  | unknownTarget (value : Value)
  | negativeDepth
  /-- Element `index` of a list of pairs has another length. -/
  | notAPair (index length : Nat)
  | invalidFrontmatter (detail : String)
  | frontmatterNotAMapping (kind : String)
  | notATarget (value : Value)
  | noTerms
  | operatorCount (expected got : Nat)
  | unknownConnective (text : String)
  | unpairedComparison
  | unknownComparison (text : String)
  | nothingToFold
  deriving DecidableEq

/-- Data of a shape that its reader does not provide for. -/
inductive Shape where
  /-- The data does not offer what is asked of it. -/
  | attribute
  /-- The data is of the wrong kind. -/
  | kind
  /-- A key is missing. -/
  | key
  /-- A position is missing. -/
  | index
  /-- A number is out of range. -/
  | range
  deriving DecidableEq, Repr

inductive Fault where
  | badValue (e : BadValue)
  | refused (e : File.Error)
  | undecodable (e : Utf8.Error)
  | shape (s : Shape)
  deriving DecidableEq

def BadValue.message : BadValue → String
  | .literal e => e.message
  | .calendar e => e.message
  | .nullInPath => "embedded null byte"
  | .nullInStart => "lstat: embedded null character in path"
  | .codePoint => "chr() arg not in range(0x110000)"
  | .nanAsInteger => "cannot convert float NaN to integer"
  | .targetsNotAList kind => s!"Targets must be a list, got {kind}"
  | .unknownTarget value =>
    s!"Unknown target: {value.shown}. Valid targets: {Target.names}"
  | .negativeDepth => "max_depth must be >= 0"
  | .notAPair index length =>
    s!"dictionary update sequence element #{index} has length {length}; 2 is required"
  | .invalidFrontmatter detail => s!"Invalid YAML in frontmatter: {detail}"
  | .frontmatterNotAMapping kind => s!"Frontmatter must be a YAML mapping, got {kind}"
  | .notATarget value => s!"Unknown target: {value.shown}"
  | .noTerms => "A condition expression needs at least one term"
  | .operatorCount expected got => s!"Expected {expected} logical operators, got {got}"
  | .unknownConnective text => s!"Unsupported logical operator: {text}"
  | .unpairedComparison => "A condition term carries a value if and only if it has an operator"
  | .unknownComparison text => s!"Unsupported comparison operator: {text}"
  | .nothingToFold => "Cannot fold an empty list of condition values"

def Fault.ofRead : File.ReadError → Fault
  | .refused e => .refused e
  | .undecodable e => .undecodable e
  | .nullInPath => .badValue .nullInPath

/-! ### Steps that can fail -/

theorem bind_eq_ok_iff {x : Except ε α} {k : α → Except ε β} {b : β} :
    (x >>= k) = .ok b ↔ ∃ a, x = .ok a ∧ k a = .ok b := by
  cases x with
  | error e => exact ⟨fun h => (nomatch h), fun ⟨_, h, _⟩ => (nomatch h)⟩
  | ok a =>
    constructor
    · exact fun h => ⟨a, rfl, h⟩
    · rintro ⟨_, ⟨⟩, h⟩
      exact h

theorem bind_eq_error_iff {x : Except ε α} {k : α → Except ε β} {e : ε} :
    (x >>= k) = .error e ↔ x = .error e ∨ ∃ a, x = .ok a ∧ k a = .error e := by
  cases x with
  | error e' =>
    constructor
    · exact fun h => .inl (congrArg Except.error (Except.error.inj h))
    · rintro (⟨⟨⟩⟩ | ⟨_, ⟨⟩, _⟩)
      rfl
  | ok a =>
    constructor
    · exact fun h => .inr ⟨a, rfl, h⟩
    · rintro (⟨⟨⟩⟩ | ⟨_, ⟨⟩, h⟩)
      exact h

end Rulebook
