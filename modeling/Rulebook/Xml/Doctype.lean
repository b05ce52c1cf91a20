import Rulebook.Xml.Declaration

/-!
# Document types

What the declarations at the start of a document provide: entities, and attributes that elements
have without being given them. The first declaration of a name counts.
-/

namespace Rulebook.Xml

structure Doctype where
  entities : List (Text × Entity)
  /-- Elements with an attribute, as written, and the value it has where it is not given. -/
  defaults : List (Text × Text × Text)
  /-- Further declarations may stand in a part that is not read. -/
  hasUnread : Bool
  /-- The document says that it does not need declarations from elsewhere. -/
  standalone : Bool
  /-- Declarations count. After a reference to declarations elsewhere they do not any more. -/
  counts : Bool

namespace Doctype

def empty (standalone : Bool) : Doctype := ⟨[], [], false, standalone, true⟩

def references (d : Doctype) : Entities := ⟨d.entities, d.standalone || !d.hasUnread⟩

/-- The text of an entity that is written `s`: numbers are replaced, names stay. -/
def entityText : Nat → Text → Text → Except Problem Text
  | 0, done, _ | _, done, [] => .ok done.reverse
  | _, _, '%' :: _ => .error .declaration
  | fuel + 1, done, '&' :: s =>
    match reference s with
    | .error p => .error p
    | .ok (found, rest) =>
      let written := '&' :: s.take (s.length - rest.length)
      match found, s with
      | .char c, '#' :: _ => entityText fuel (c :: done) rest
      | _, _ => entityText fuel (written.reverse ++ done) rest
  | fuel + 1, done, c :: s => entityText fuel (c :: done) s

def declareEntity (d : Doctype) (form : EntityForm) : Except Problem Doctype := do
  if !d.counts then return d
  let entity ← match form.literal with
    | some literal => .internal <$> entityText literal.length [] literal
    | none => .ok .external
  let isKnown := (d.entities.lookup form.name).isSome || (predefined? form.name).isSome
  if form.parameter || isKnown then return d
  return { d with entities := d.entities ++ [(form.name, entity)] }

def declareAttribute (element : Text) (d : Doctype) (form : Text × Text) :
    Except Problem Doctype := do
  let value ← d.references.attributeText form.2
  return { d with defaults := d.defaults ++ [(element, form.1, value)] }

/-- Reads a declaration after `<!`. -/
def declaration (d : Doctype) (s : Text) : Except Problem (Doctype × Text) := do
  let kind := s.takeWhile Word.isLetter
  let after := s.dropWhile Word.isLetter
  if !after.head?.any isSpace then .error .declaration
  let (found, _, rest) ← marks false after.length [] after
  if kind = "ENTITY".toList then
    match entityForm? found with
    | some form => return (← d.declareEntity form, rest)
    | none => .error .declaration
  else if kind = "ATTLIST".toList then
    match found with
    | .word element :: more => match attributeForms? more.length more with
      | some attributes =>
        if !Mark.isQualified element then .error .declaration
        else if !d.counts then return (d, rest)
        else return (← attributes.foldlM (declareAttribute element) d, rest)
      | none => .error .declaration
    | _ => .error .declaration
  else if kind = "ELEMENT".toList && isElement found then return (d, rest)
  else if kind = "NOTATION".toList && isNotation found then return (d, rest)
  else .error .declaration

end Doctype

/-! ### Comments and instructions -/

/-- What follows a comment, after its `<!--`. -/
def afterComment (s : Text) : Except Problem Text :=
  match Search.split? ['-', '-'] s with
  | some (_, '>' :: rest) => .ok rest
  | _ => .error .markup

/-- Whether a name is kept for the first line of documents. -/
def isReserved (name : Text) : Bool :=
  match name with
  | [x, m, l] => (x == 'x' || x == 'X') && (m == 'm' || m == 'M') && (l == 'l' || l == 'L')
  | _ => false

/-- What follows a processing instruction, after its `<?`. -/
def afterInstruction (s : Text) : Except Problem Text :=
  match plainName? s with
  | none => .error .markup
  | some (name, rest) =>
    if isReserved name then .error .misplacedDeclaration
    else match rest with
      | '?' :: '>' :: rest => .ok rest
      | c :: _ =>
        if !isSpace c then .error .markup
        else match Search.split? ['?', '>'] rest with
          | some (_, rest) => .ok rest
          | none => .error .markup
      | [] => .error .markup

namespace Doctype

/-- The declarations between brackets, up to the closing one. -/
def subset : Nat → Doctype → Text → Except Problem (Doctype × Text)
  | 0, _, _ => .error .declaration
  | fuel + 1, d, s =>
    match skipSpace s with
    | ']' :: rest => .ok (d, rest)
    | '<' :: '!' :: '-' :: '-' :: s => do subset fuel d (← afterComment s)
    | '<' :: '?' :: s => do subset fuel d (← afterInstruction s)
    | '<' :: '!' :: s => do
      let (d, rest) ← d.declaration s
      subset fuel d rest
    | '%' :: s => match plainName? s with
      | some (_, ';' :: rest) =>
        subset fuel { d with hasUnread := true, counts := d.standalone } rest
      | _ => .error .declaration
    | _ => .error .declaration

/-- Reads a document type after `<!DOCTYPE`. -/
def read (standalone : Bool) (s : Text) : Except Problem (Doctype × Text) := do
  if !s.head?.any isSpace then .error .declaration
  let (found, hasSubset, rest) ← marks true s.length [] s
  match doctypeForm? found with
  | none => .error .declaration
  | some hasUnread =>
    let d := { empty standalone with hasUnread }
    if !hasSubset then return (d, rest)
    let (d, rest) ← subset (rest.length + 1) d rest
    match skipSpace rest with
    | '>' :: rest => return (d, rest)
    | _ => .error .declaration

end Doctype

end Rulebook.Xml
