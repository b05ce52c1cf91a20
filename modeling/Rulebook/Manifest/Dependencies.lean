import Rulebook.Condition.Basic

/-!
# Dependencies

The packages that a project depends on, by name, with the version where one is given.

Each ecosystem has a rule of its own for when two names mean one package. A name is brought into
the normal form of its ecosystem before it is stored or looked up.
-/

namespace Rulebook

/-! ## Names of packages -/

inductive Naming where
  | exact
  | caseless
  /-- Case does not matter, nor which separators stand between words. -/
  | folded
  deriving DecidableEq, Repr

namespace Naming

def isSeparator (c : Char) : Bool := c == '-' || c == '_' || c == '.'

/-- Writes each run of separators as one hyphen; `inRun` says that a run goes on. -/
def foldSeparators (inRun : Bool) : Text → Text
  | [] => []
  | c :: s =>
    if isSeparator c then
      if inRun then foldSeparators true s else '-' :: foldSeparators true s
    else c :: foldSeparators false s

def normal (n : Naming) (name : Text) : Text :=
  let name := Blank.trim name
  match n with
  | .exact => name
  | .caseless => LowerCase.text name
  | .folded => LowerCase.text (foldSeparators false name)

end Naming

def Ecosystem.naming : Ecosystem → Naming
  | .pip => .folded
  | .composer | .nuget => .caseless
  | _ => .exact

/-- The rule of the ecosystem of that name; under any other name only equal names agree. -/
def Naming.ofEcosystem (name : String) : Naming :=
  match Ecosystem.ofName? name with
  | some e => e.naming
  | none => .exact

/-- The normal form of the name of a package. -/
def Ecosystem.normalName (e : Ecosystem) (name : String) : String :=
  String.ofList (e.naming.normal name.toList)

/-! ## Packages -/

structure Dependencies where
  entries : List (String × Option String)
  deriving DecidableEq, Repr

namespace Dependencies

def empty : Dependencies := ⟨[]⟩

def contains (d : Dependencies) (name : String) : Bool := d.entries.any fun e => e.1 = name

def insertInto (name : String) (version : Option String) :
    List (String × Option String) → List (String × Option String)
  | [] => [(name, version)]
  | e :: es => if e.1 = name then (name, version) :: es else e :: insertInto name version es

/-- Replaces the version of `name`, or adds the package at the end. -/
def insert (d : Dependencies) (name : String) (version : Option String) : Dependencies :=
  ⟨insertInto name version d.entries⟩

def erase (d : Dependencies) (name : String) : Dependencies :=
  ⟨d.entries.filter fun e => e.1 ≠ name⟩

/-- The entries in the order of the names. -/
def sorted (d : Dependencies) : List (String × Option String) :=
  d.entries.mergeSort fun a b => decide (a.1 ≤ b.1)

theorem contains_iff {d : Dependencies} {name : String} :
    d.contains name = true ↔ name ∈ d.entries.map (·.1) := by
  simp [contains]

theorem mem_insertInto {name other : String} {version : Option String}
    {es : List (String × Option String)} :
    other ∈ (insertInto name version es).map (·.1) ↔ other = name ∨ other ∈ es.map (·.1) := by
  induction es with
  | nil => simp [insertInto]
  | cons e es ih =>
    by_cases h : e.1 = name
    · simp [insertInto, h]
    · simp only [insertInto, h, ↓reduceIte, List.map_cons, List.mem_cons, ih]
      constructor <;> (rintro (h | h | h) <;> simp_all)

@[simp] theorem contains_insert (d : Dependencies) (name other : String)
    (version : Option String) :
    (d.insert name version).contains other = (decide (other = name) || d.contains other) := by
  rw [Bool.eq_iff_iff]
  simp only [contains_iff, insert, mem_insertInto, Bool.or_eq_true, decide_eq_true_eq]

end Dependencies

end Rulebook
