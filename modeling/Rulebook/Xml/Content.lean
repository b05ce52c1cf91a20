import Rulebook.Xml.Doctype
import Rulebook.Xml.Element

/-!
# Content

The content of elements: text, references, comments, instructions and elements inside.

## Main definitions

* `Tag.read`: a start tag with its attributes.
* `element`: an element with everything inside.
-/

namespace Rulebook.Xml

/-! ### Start tags -/

structure Tag where
  name : Name
  attributes : List (Name × Text)
  /-- The element has no content and no end tag. -/
  isEmpty : Bool

/-- The namespaces that prefixes stand for, innermost first. -/
abbrev Scope := List (Text × Text)

def xmlSpace : Text := "http://www.w3.org/XML/1998/namespace".toList

def xmlnsSpace : Text := "http://www.w3.org/2000/xmlns/".toList

def xmlns : Text := "xmlns".toList

def Name.text (n : Name) : Text :=
  match n.space with
  | none => n.base
  | some space => space ++ ':' :: n.base

def Name.string (n : Name) : String := String.ofList n.text

namespace Tag

/-- The attributes of a start tag after its name, up to its end. -/
def attributesFrom : Nat → List (Name × Text) → Text →
    Except Problem (List (Name × Text) × Bool × Text)
  | 0, _, _ => .error .markup
  | fuel + 1, done, s =>
    match skipSpace s with
    | '>' :: rest => .ok (done.reverse, false, rest)
    | '/' :: '>' :: rest => .ok (done.reverse, true, rest)
    | t =>
      if !s.head?.any isSpace then .error .markup
      else match name? t with
        | none => .error .markup
        | some (name, rest) => match skipSpace rest with
          | '=' :: rest => match skipSpace rest with
            | quote :: rest =>
              if quote == '"' || quote == '\'' then
                match Search.split? [quote] rest with
                | some (value, rest) => attributesFrom fuel ((name, value) :: done) rest
                | none => .error .markup
              else .error .markup
            | [] => .error .markup
          | _ => .error .markup

/-- Reads a start tag after its `<`. -/
def read (s : Text) : Except Problem (Tag × Text) :=
  match name? s with
  | none => .error .markup
  | some (name, rest) => do
    let (attributes, isEmpty, rest) ← attributesFrom (rest.length + 1) [] rest
    .ok (⟨name, attributes, isEmpty⟩, rest)

/-- The first name that occurs again. -/
def repeated? : List Name → Option Name
  | [] => none
  | n :: ns => if n ∈ ns then some n else repeated? ns

/-- The namespace that an attribute binds to a prefix; the empty prefix is that of elements
without one. -/
def bound? (n : Name) : Option Text :=
  if n.space = some xmlns then some n.base
  else if n.space = none && n.base = xmlns then some []
  else none

/-- Whether a prefix can stand for a namespace. -/
def canBind (space uri : Text) : Bool :=
  !(uri.isEmpty && !space.isEmpty) && space ≠ xmlns && uri ≠ xmlnsSpace &&
    !uri.contains '}' && (decide (space = "xml".toList) == decide (uri = xmlSpace))

/-- Extends `scope` by the namespaces that attributes bind. -/
def bind (scope : Scope) : List (Name × Text) → Except Problem Scope
  | [] => .ok scope
  | (name, value) :: more =>
    match bound? name with
    | none => bind scope more
    | some space =>
      if canBind space value then bind ((space, value) :: scope) more
      else .error (.reservedPrefix name.string)

/-- The namespace of a prefix. -/
def spaceOf (scope : Scope) (space : Text) : Except Problem Text :=
  match scope.lookup space with
  | some uri => .ok uri
  | none => .error (.unboundPrefix (String.ofList space))

/-- Attributes with a prefix are told apart by what the prefix stands for. -/
def expandedName? (scope : Scope) (n : Name) : Except Problem (Option Name) :=
  match n.space with
  | none => .ok none
  | some space =>
    if space = xmlns then .ok none
    else do
      let uri ← spaceOf scope space
      .ok (some ⟨some uri, n.base⟩)

/-- The attributes that elements of this name have without being given them. -/
def inherited (d : Doctype) (t : Tag) : List (Name × Text) :=
  d.defaults.filterMap fun (element, written, value) => do
    if element ≠ t.name.text then none
    let (name, _) ← name? written
    if t.attributes.any fun x => x.1 = name then none
    some (name, value)

/-- Checks the attributes, and extends the scope by the namespaces that they bind. -/
def check (d : Doctype) (scope : Scope) (t : Tag) : Except Problem Scope := do
  match repeated? (t.attributes.map (·.1)) with
  | some name => .error (.repeatedAttribute name.string)
  | none =>
    let given ← t.attributes.mapM fun (name, written) => do
      .ok (name, ← d.references.attributeText written)
    let all := given ++ t.inherited d
    let scope ← bind scope all
    let names ← (all.map (·.1)).filterMapM (expandedName? scope)
    match repeated? names with
    | some name => .error (.repeatedAttribute (String.ofList name.base))
    | none =>
      match t.name.space with
      | none => .ok scope
      | some space => (spaceOf scope space).map fun _ => scope

end Tag

/-! ### Content -/

/-- The text before the first child, and the children. Both are kept last first. -/
structure Content where
  text : Text
  children : List Element

namespace Content

def empty : Content := ⟨[], []⟩

/-- Text after the first child is dropped. -/
def addText (c : Content) (s : Text) : Content :=
  if c.children.isEmpty then ⟨s.reverse ++ c.text, []⟩ else c

def addChild (c : Content) (e : Element) : Content := ⟨c.text, e :: c.children⟩

def append (c d : Content) : Content :=
  ⟨if c.children.isEmpty then d.text ++ c.text else c.text, d.children ++ c.children⟩

def close (c : Content) (name : Name) : Element :=
  .mk (String.ofList name.base) c.text.reverse c.children.reverse

end Content

/-- The longest text without markup at the start of `s`. -/
def plainText (s : Text) : Text := s.takeWhile fun c => c != '<' && c != '&' && c != ']'

def cdataStart : Text := "![CDATA[".toList

/-- What follows an end tag for `name`, after its `</`. -/
def afterEndTag (name : Name) (s : Text) : Except Problem Text :=
  match Search.dropStart? name.text s with
  | none => .error (.mismatch name.string)
  | some rest => match skipSpace rest with
    | '>' :: rest => .ok rest
    | _ => .error (.mismatch name.string)

mutual

/-- Content from `s` up to an end tag or the end of the text; `inner` reads the text of an
entity. -/
def content (d : Doctype) (inner : Scope → Text → Except Problem Content) :
    Nat → Scope → Content → Text → Except Problem (Content × Text)
  | 0, _, _, _ => .error .markup
  | _, _, done, [] => .ok (done, [])
  | _, _, done, '<' :: '/' :: s => .ok (done, '<' :: '/' :: s)
  | fuel + 1, scope, done, '<' :: '!' :: '-' :: '-' :: s =>
    match afterComment s with
    | .ok rest => content d inner fuel scope done rest
    | .error p => .error p
  | fuel + 1, scope, done, '<' :: '?' :: s =>
    match afterInstruction s with
    | .ok rest => content d inner fuel scope done rest
    | .error p => .error p
  | fuel + 1, scope, done, '<' :: s =>
    match Search.dropStart? cdataStart s with
    | some s => match Search.split? "]]>".toList s with
      | some (text, rest) => content d inner fuel scope (done.addText text) rest
      | none => .error .markup
    | none => match element d inner fuel scope s with
      | .ok (child, rest) => content d inner fuel scope (done.addChild child) rest
      | .error p => .error p
  | fuel + 1, scope, done, '&' :: s =>
    match reference s with
    | .error p => .error p
    | .ok (.char c, rest) => content d inner fuel scope (done.addText [c]) rest
    | .ok (.entity name, rest) => match d.entities.lookup name with
      | none => .error (.undefinedEntity (String.ofList name))
      | some .external => .error (.unreadEntity (String.ofList name))
      | some (.internal text) => match inner scope text with
        | .ok more => content d inner fuel scope (done.append more) rest
        | .error p => .error p
  | _, _, _, ']' :: ']' :: '>' :: _ => .error .markup
  | fuel + 1, scope, done, ']' :: s => content d inner fuel scope (done.addText [']']) s
  | fuel + 1, scope, done, c :: s =>
    let text := plainText (c :: s)
    content d inner fuel scope (done.addText text) ((c :: s).drop text.length)

/-- The element whose `<` stands before `s`, and what follows it. -/
def element (d : Doctype) (inner : Scope → Text → Except Problem Content) :
    Nat → Scope → Text → Except Problem (Element × Text)
  | 0, _, _ => .error .markup
  | fuel + 1, scope, s =>
    match Tag.read s with
    | .error p => .error p
    | .ok (tag, rest) => match tag.check d scope with
      | .error p => .error p
      | .ok scope =>
        if tag.isEmpty then .ok (Content.empty.close tag.name, rest)
        else match content d inner fuel scope Content.empty rest with
          | .error p => .error p
          | .ok (found, '<' :: '/' :: rest) =>
            (afterEndTag tag.name rest).map fun rest => (found.close tag.name, rest)
          | .ok _ => .error (.openElement tag.name.string)

end

/-- The content that the text of an entity stands for, entities inside it up to `depth` deep. -/
def entityContent (d : Doctype) : Nat → Scope → Text → Except Problem Content
  | 0, _, _ => .error (.recursiveEntity "")
  | depth + 1, scope, s =>
    match content d (entityContent d depth) (2 * s.length + 2) scope Content.empty s with
    | .error p => .error p
    | .ok (found, []) => .ok found
    | .ok _ => .error .markup

/-- The root element, whose `<` stands before `s`, and what follows it. -/
def rootElement (d : Doctype) (s : Text) : Except Problem (Element × Text) :=
  element d (entityContent d d.references.depth) (2 * s.length + 2)
    [("xml".toList, xmlSpace)] s

end Rulebook.Xml
