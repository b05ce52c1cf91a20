import Rulebook.Xml.Content

/-!
# Documents

A document is an optional declaration in its first line, an optional document type and one root
element. Comments, instructions and space can stand around them. The text is taken as it is, so
what the declaration says of its encoding does not matter.
-/

namespace Rulebook.Xml

/-! ### The declaration -/

def isAttributeChar (c : Char) : Bool := Word.isLetterOrDigit c || c == '.' || c == '-' || c == '_'

/-- The attributes of the declaration, each after a space. -/
def declarationAttributes : Nat → List (Text × Text) → Text → Option (List (Text × Text))
  | 0, _, _ => none
  | fuel + 1, done, s =>
    match skipSpace s with
    | [] => some done.reverse
    | t =>
      if !s.head?.any isSpace then none
      else
        let name := t.takeWhile fun c => c != '=' && !isSpace c
        match skipSpace (t.drop name.length) with
        | '=' :: rest => match skipSpace rest with
          | quote :: rest =>
            let value := rest.takeWhile isAttributeChar
            match rest.drop value.length with
            | close :: rest =>
              if (quote == '"' || quote == '\'') && close == quote && !name.isEmpty then
                declarationAttributes fuel ((name, value) :: done) rest
              else none
            | [] => none
          | [] => none
        | _ => none

/-- Whether the attributes say that the document needs no declarations from elsewhere; none for
attributes that are not allowed. -/
def isStandalone? (given : List (Text × Text)) : Option Bool :=
  let version := "version".toList
  let encoding := "encoding".toList
  let standalone := "standalone".toList
  let answer (value : Text) : Option Bool :=
    if value = "yes".toList then some true else if value = "no".toList then some false else none
  let startsWithLetter (value : Text) : Bool := value.head?.any Word.isLetter
  match given with
  | [(a, _)] => if a = version then some false else none
  | [(a, _), (b, value)] =>
    if a ≠ version then none
    else if b = encoding && startsWithLetter value then some false
    else if b = standalone then answer value
    else none
  | [(a, _), (b, value), (c, alone)] =>
    if a = version && b = encoding && startsWithLetter value && c = standalone then answer alone
    else none
  | _ => none

/-- Whether the document stands alone, and what follows its declaration, if it has one. -/
def readDeclaration (s : Text) : Except Problem (Bool × Text) :=
  match Search.dropStart? "<?xml".toList s with
  | none => .ok (false, s)
  | some body =>
    if body.head?.any isNameChar then .ok (false, s)
    else match Search.split? ['?', '>'] body with
      | none => .error .markup
      | some (inside, rest) =>
        match declarationAttributes (inside.length + 1) [] inside with
        | none => .error .declaration
        | some given => match isStandalone? given with
          | some alone => .ok (alone, rest)
          | none => .error .declaration

/-! ### The whole -/

/-- What follows comments, instructions and space. -/
def skipAround : Nat → Text → Except Problem Text
  | 0, _ => .error .markup
  | fuel + 1, s =>
    match skipSpace s with
    | '<' :: '!' :: '-' :: '-' :: s =>
      match afterComment s with
      | .ok rest => skipAround fuel rest
      | .error p => .error p
    | '<' :: '?' :: s =>
      match afterInstruction s with
      | .ok rest => skipAround fuel rest
      | .error p => .error p
    | s => .ok s

def around (s : Text) : Except Problem Text := skipAround (s.length + 1) s

/-- The document type and what follows it; an empty one where there is none. -/
def readDoctype (standalone : Bool) (s : Text) : Except Problem (Doctype × Text) :=
  match Search.dropStart? "<!DOCTYPE".toList s with
  | some rest => Doctype.read standalone rest
  | none => .ok (.empty standalone, s)

/-- The root element of a document. -/
def read (s : Text) : Except Problem Element := do
  let s := match s with
    | '\uFEFF' :: rest => rest
    | s => s
  if !s.all isChar then .error .character
  let (standalone, rest) ← readDeclaration s
  let (d, rest) ← readDoctype standalone (← around rest)
  if !d.references.isBalanced s then .error .amplification
  match ← around rest with
  | '<' :: rest =>
    let (root, rest) ← rootElement d rest
    if (← around rest).isEmpty then .ok root else .error .afterRoot
  | [] => .error .noElement
  | _ => .error .markup

end Rulebook.Xml
