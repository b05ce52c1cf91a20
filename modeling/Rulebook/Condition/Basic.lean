import Rulebook.Fault

/-!
# Conditions

The `when` conditions of documents: identifiers in namespaces, terms that ask whether something
exists or how a value compares, and terms joined by connectives in written order.

## Main definitions

* `Identifier`, `Term`, `Expression`, and their written forms `text`.
* `Term.ofParts`, `Expression.ofParts`: building from unchecked parts.
-/

namespace Rulebook

/-- Package ecosystems, each with manifests of its own. -/
inductive Ecosystem where
  | npm | pip | go | cargo | composer | gem | pub | maven | gradle | nuget
  deriving DecidableEq, Repr

namespace Ecosystem

def all : List Ecosystem :=
  [.npm, .pip, .go, .cargo, .composer, .gem, .pub, .maven, .gradle, .nuget]

def name : Ecosystem → String
  | .npm => "npm"
  | .pip => "pip"
  | .go => "go"
  | .cargo => "cargo"
  | .composer => "composer"
  | .gem => "gem"
  | .pub => "pub"
  | .maven => "maven"
  | .gradle => "gradle"
  | .nuget => "nuget"

def ofName? (s : String) : Option Ecosystem := all.find? fun e => e.name = s

theorem mem_all (e : Ecosystem) : e ∈ all := by cases e <;> decide

theorem ofName?_name (e : Ecosystem) : ofName? e.name = some e := by cases e <;> decide

end Ecosystem

/-- What an identifier names: a package, a place below the project, a field of `package.json` or
a variable. -/
inductive Namespace where
  | package (ecosystem : Ecosystem)
  | file
  | dir
  | pkg
  | var
  /-- A name outside the language; reading never gives one. -/
  | unknown (name : String)
  deriving DecidableEq, Repr

namespace Namespace

def known : List Namespace := Ecosystem.all.map .package ++ [.file, .dir, .pkg, .var]

def name : Namespace → String
  | .package e => e.name
  | .file => "file"
  | .dir => "dir"
  | .pkg => "pkg"
  | .var => "var"
  | .unknown name => name

def known? (s : String) : Option Namespace := known.find? fun n => n.name = s

def ofName (s : String) : Namespace := (known? s).getD (.unknown s)

/-- The namespaces whose identifiers carry values to compare. -/
def hasValues : Namespace → Bool
  | .pkg | .var => true
  | _ => false

def knownNames : String := ", ".intercalate (known.map name)

end Namespace

structure Identifier where
  space : Namespace
  name : String
  deriving DecidableEq, Repr

/-- A name with blanks is written in quotes. -/
def Identifier.text (i : Identifier) : String :=
  if i.name.toList.any Blank.isBlank then i.space.name ++ ":\"" ++ i.name ++ "\""
  else i.space.name ++ ":" ++ i.name

inductive Comparison where
  | equal
  | different
  deriving DecidableEq, Repr

namespace Comparison

def text : Comparison → String
  | .equal => "=="
  | .different => "!="

def ofText? : String → Option Comparison
  | "==" => some .equal
  | "!=" => some .different
  | _ => none

def holds : Comparison → String → String → Bool
  | .equal, a, b => a = b
  | .different, a, b => a ≠ b

end Comparison

inductive Connective where
  | and
  | or
  deriving DecidableEq, Repr

namespace Connective

def text : Connective → String
  | .and => "&&"
  | .or => "||"

def ofText? : String → Option Connective
  | "&&" => some .and
  | "||" => some .or
  | _ => none

def apply : Connective → Bool → Bool → Bool
  | .and, a, b => a && b
  | .or, a, b => a || b

end Connective

/-- Whether something exists, or how its value compares with a text. -/
structure Term where
  identifier : Identifier
  negated : Bool
  test : Option (Comparison × String)
  deriving DecidableEq, Repr

namespace Term

def sign (t : Term) : String := if t.negated then "!" else ""

def text (t : Term) : String :=
  t.sign ++ t.identifier.text ++ match t.test with
    | none => ""
    | some (comparison, value) => " " ++ comparison.text ++ " \"" ++ value ++ "\""

/-- The term without its comparison, for reports of what was looked up. -/
def checked (t : Term) : String := t.sign ++ t.identifier.space.name ++ ":" ++ t.identifier.name

/-- A value comes with an operator and an operator with a value. -/
def ofParts (identifier : Identifier) (negated : Bool) (operator value : Option String) :
    Except BadValue Term :=
  match operator, value with
  | none, none => .ok ⟨identifier, negated, none⟩
  | some o, some v => match Comparison.ofText? o with
    | some comparison => .ok ⟨identifier, negated, some (comparison, v)⟩
    | none => .error (.unknownComparison o)
  | _, _ => .error .unpairedComparison

end Term

/-- Terms with the connectives between them, which bind from left to right. -/
structure Expression where
  first : Term
  rest : List (Connective × Term)
  deriving DecidableEq, Repr

namespace Expression

def terms (e : Expression) : List Term := e.first :: e.rest.map (·.2)

def connectives (e : Expression) : List Connective := e.rest.map (·.1)

def text (e : Expression) : String :=
  e.rest.foldl (fun s (c, t) => s ++ " " ++ c.text ++ " " ++ t.text) e.first.text

/-- One connective fewer than terms, and at least one term. -/
def ofParts (terms : List Term) (operators : List String) : Except BadValue Expression :=
  match terms with
  | [] => .error .noTerms
  | first :: others =>
    if operators.length ≠ others.length then
      .error (.operatorCount others.length operators.length)
    else do
      let connectives ← operators.mapM fun o => match Connective.ofText? o with
        | some c => .ok c
        | none => .error (.unknownConnective o)
      .ok ⟨first, connectives.zip others⟩

end Expression

/-! ### Folding truth values -/

/-- Joins further truth values to `v`, each as soon as it comes. -/
def foldTruth (v : Bool) (rest : List (Connective × Bool)) : Bool :=
  rest.foldl (fun acc (c, w) => c.apply acc w) v

/-- Folds values with the connectives between them; what is left over of either is ignored. -/
def foldValues : List Bool → List Connective → Except BadValue Bool
  | [], _ => .error .nothingToFold
  | v :: vs, connectives => .ok (foldTruth v (connectives.zip vs))

end Rulebook
