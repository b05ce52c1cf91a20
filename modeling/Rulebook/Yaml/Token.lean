import Rulebook.Text.Utf8
import Rulebook.Yaml.Scalar

/-!
# Tokens

The tokens of YAML, and readers for those that are written with an indicator and a name:
directives, anchors, aliases and tags.
-/

namespace Rulebook.Yaml

inductive Directive where
  | version (major : Nat)
  | handle (handle uri : String)
  | other
  deriving DecidableEq, Repr

/-- A tag as written: after a handle, or by itself. -/
structure TagName where
  handle : Option String
  suffix : String
  deriving DecidableEq, Repr

inductive Token where
  | directive (d : Directive)
  | documentStart
  | documentEnd
  | sequenceStart
  | mappingStart
  /-- The end of a collection that is marked by indentation. -/
  | blockEnd
  | flowSequenceStart
  | flowSequenceEnd
  | flowMappingStart
  | flowMappingEnd
  | entry
  | flowEntry
  | key
  | value
  | alias (name : String)
  | anchor (name : String)
  | tag (name : TagName)
  | scalar (text : String) (isPlain : Bool)
  | streamEnd
  /-- From here on the text cannot be read. -/
  | broken (e : Error)
  deriving DecidableEq

def Token.name : Token → String
  | .directive _ => "directive"
  | .documentStart => "document start"
  | .documentEnd => "document end"
  | .sequenceStart => "block sequence start"
  | .mappingStart => "block mapping start"
  | .blockEnd => "block end"
  | .flowSequenceStart => "opening bracket"
  | .flowSequenceEnd => "closing bracket"
  | .flowMappingStart => "opening brace"
  | .flowMappingEnd => "closing brace"
  | .entry => "sequence entry"
  | .flowEntry => "comma"
  | .key => "mapping key"
  | .value => "mapping value"
  | .alias _ => "alias"
  | .anchor _ => "anchor"
  | .tag _ => "tag"
  | .scalar .. => "scalar"
  | .streamEnd => "end of stream"
  | .broken _ => "text"

namespace Token

open Source

def malformed (p : Problem) : Except Error α := .error (.malformed p)

def isNameChar (c : Char) : Bool := c.isAlphanum || c == '-' || c == '_'

def isUriChar (c : Char) : Bool := isNameChar c || "-;/?:@&=+$,_.!~*'()[]".toList.contains c

/-! ### Tags -/

/-- The bytes that escapes of the form `%hh` at the start of `s` write. -/
def uriBytes : Nat → Source → Except Error (List UInt8 × Source)
  | 0, s => .ok ([], s)
  | fuel + 1, s =>
    if s.peek != '%' then .ok ([], s)
    else match (Scalar.hexCode 2 (s.drop 1)) with
      | .error _ => malformed .tag
      | .ok code => do
        let (more, rest) ← uriBytes fuel (s.drop 3)
        .ok (UInt8.ofNat code :: more, rest)

/-- The longest text at the start of `s` that can be in a tag, escapes decoded. -/
def uriFrom : Nat → Source → Except Error (Text × Source)
  | 0, s => .ok ([], s)
  | fuel + 1, s =>
    let run := s.takeWhile isUriChar
    let rest : Source := s.drop run.length
    if rest.peek != '%' then .ok (run, rest)
    else do
      let (bytes, rest) ← uriBytes rest.length rest
      match Utf8.decode bytes with
      | .error _ => malformed .tag
      | .ok decoded => do
        let (more, rest) ← uriFrom fuel rest
        .ok (run ++ decoded ++ more, rest)

def uri (s : Source) : Except Error (String × Source) := do
  if isUriChar s.peek || s.peek == '%' then
    let (text, rest) ← uriFrom s.length s
    .ok (String.ofList text, rest)
  else malformed .tag

/-- A tag handle: `!`, `!!` or a name between two exclamation marks. -/
def handle (s : Source) : Except Error (String × Source) :=
  if s.peek != '!' then malformed .tag
  else if s.peekAt 1 == ' ' then .ok ("!", s.drop 1)
  else
    let name := Source.takeWhile isNameChar (s.drop 1)
    if s.peekAt (name.length + 1) == '!' then
      .ok (String.ofList ('!' :: name ++ ['!']), s.drop (name.length + 2))
    else malformed .tag

/-- The parts of the tag at the start of `s`. -/
def tagName (s : Source) : Except Error (TagName × Source) :=
  let next := s.peekAt 1
  if next == '<' then do
    let (suffix, rest) ← uri (s.drop 2)
    if rest.peek == '>' then .ok (⟨none, suffix⟩, rest.drop 1) else malformed .tag
  else if endsWord next then .ok (⟨none, "!"⟩, s.drop 1)
  else do
    let word := Source.takeWhile (!endsSpaced ·) (s.drop 1)
    let (handle, rest) ← if word.contains '!' then handle s else .ok ("!", s.drop 1)
    let (suffix, rest) ← uri rest
    .ok (⟨some handle, suffix⟩, rest)

/-- The tag at the start of `s`, which has to end where a word ends. -/
def scanTag (s : Source) : Except Error (Token × Source) := do
  let (name, rest) ← tagName s
  if endsSpaced rest.peek then .ok (.tag name, rest) else malformed .tag

/-! ### Anchors and aliases -/

/-- The name after the indicator of an anchor or an alias. -/
def anchorName (s : Source) : Except Error (String × Source) :=
  let name := Source.takeWhile isNameChar (s.drop 1)
  let rest : Source := s.drop (name.length + 1)
  let c := rest.peek
  if name.isEmpty then malformed .anchor
  else if endsWord c || ['?', ':', ',', ']', '}', '%', '@', '\x60'].contains c then
    .ok (String.ofList name, rest)
  else malformed .anchor

def scanAnchor (s : Source) : Except Error (Token × Source) :=
  (anchorName s).map fun (name, rest) => (.anchor name, rest)

def scanAlias (s : Source) : Except Error (Token × Source) :=
  (anchorName s).map fun (name, rest) => (.alias name, rest)

/-! ### Directives -/

/-- A number in decimal digits at the start of `s`. -/
def directiveNumber (s : Source) : Except Error (Nat × Source) :=
  let digits := s.takeWhile Char.isDigit
  if digits.isEmpty then malformed .directive
  else .ok (Literal.ofDigits 10 (digits.map fun c => c.toNat - 48), s.drop digits.length)

def versionDirective (s : Source) : Except Error (Directive × Source) := do
  let (major, rest) ← directiveNumber s.skipSpaces
  if rest.peek != '.' then malformed .directive
  let (_, rest) ← directiveNumber (rest.drop 1)
  if endsSpaced rest.peek then .ok (.version major, rest) else malformed .directive

def handleDirective (s : Source) : Except Error (Directive × Source) := do
  let (handle, rest) ← handle s.skipSpaces
  if rest.peek != ' ' then malformed .directive
  let (text, rest) ← uri rest.skipSpaces
  if endsSpaced rest.peek then .ok (.handle handle text, rest) else malformed .directive

/-- The directive at the start of `s`, with its line. -/
def scanDirective (s : Source) : Except Error (Token × Source) := do
  let name := Source.takeWhile isNameChar (s.drop 1)
  let rest : Source := s.drop (name.length + 1)
  if name.isEmpty || !endsSpaced rest.peek then malformed .directive
  let (found, rest) ←
    if name = "YAML".toList then versionDirective rest
    else if name = "TAG".toList then handleDirective rest
    else .ok (.other, rest.dropWhile (!endsLine ·))
  .ok (.directive found, ← Scalar.ignoredLine .directive rest)

end Token

end Rulebook.Yaml
