import Rulebook.Yaml.Token

/-!
# Token streams

The tokens of a text in order. Two kinds of token are not written but found by where others
stand: the start and end of collections that indentation marks, and the key in front of a node
that a `:` turns out to follow. Whatever could be such a key is kept in mind until it can no
longer be one: a key stands on one line and has at most 1024 characters.

## Main definitions

* `Lexer.step`: adds the next token.
* `Token.stream`: all tokens.
-/

namespace Rulebook.Yaml

/-- A place where a key may turn out to start, after `count` tokens. -/
structure KeyPlace where
  count : Nat
  place : Glyph
  /-- Only a key can stand here. -/
  required : Bool

/-- The work on a stream of tokens. -/
structure Lexer where
  rest : Source
  /-- The tokens found so far, latest first, and how many they are. -/
  tokens : List Token
  count : Nat
  /-- The columns of the open block collections, innermost first. -/
  indents : List Nat
  /-- Whether a key may start here. -/
  keyAllowed : Bool
  /-- The possible key on this level, and those on the levels around the open flow collections. -/
  keyPlace : Option KeyPlace
  outerPlaces : List (Option KeyPlace)

namespace Lexer

open Source

def malformed (p : Problem) : Except Error α := .error (.malformed p)

def inFlow (l : Lexer) : Bool := !l.outerPlaces.isEmpty

/-- The column of the innermost open block collection, -1 when there is none. -/
def indent (l : Lexer) : Int := (l.indents.head?.map Int.ofNat).getD (-1)

def column (l : Lexer) : Nat := l.rest.column

def add (l : Lexer) (t : Token) : Lexer := { l with tokens := t :: l.tokens, count := l.count + 1 }

/-- Adds `t` before all but the first `count` tokens. -/
def insert (l : Lexer) (count : Nat) (t : Token) : Lexer :=
  let later := l.count - count
  { l with tokens := l.tokens.take later ++ t :: l.tokens.drop later, count := l.count + 1 }

/-! ### Possible keys -/

/-- Gives up a place where a key could have started. -/
def giveUp : Option KeyPlace → Except Error (Option KeyPlace)
  | some k => if k.required then malformed .missingColon else .ok none
  | none => .ok none

def forget (l : Lexer) : Except Error Lexer := do
  .ok { l with keyPlace := ← giveUp l.keyPlace }

/-- Gives up the places that are too far back. -/
def dropStale (here : Glyph) (k : Option KeyPlace) : Except Error (Option KeyPlace) :=
  match k with
  | some k =>
    if k.place.line ≠ here.line || 1024 < here.offset - k.place.offset then giveUp (some k)
    else .ok (some k)
  | none => .ok none

def forgetStale (l : Lexer) : Except Error Lexer := do
  match l.rest with
  | [] => .ok l
  | here :: _ =>
    .ok { l with keyPlace := ← dropStale here l.keyPlace
                 outerPlaces := ← l.outerPlaces.mapM (dropStale here) }

/-- Keeps in mind that a key may start here. -/
def remember (l : Lexer) : Except Error Lexer := do
  match l.rest with
  | [] => .ok l
  | here :: _ =>
    if !l.keyAllowed then .ok l
    else
      let l ← l.forget
      .ok { l with keyPlace := some ⟨l.count, here, !l.inFlow && l.indent = here.column⟩ }

/-! ### Indentation -/

/-- Closes the block collections to the right of `column`; -1 closes all. -/
def closeTo (column : Int) : List Nat → List Nat × Nat
  | [] => ([], 0)
  | c :: cs =>
    if column < c then
      let (left, closed) := closeTo column cs
      (left, closed + 1)
    else (c :: cs, 0)

def unwind (l : Lexer) (column : Int) : Lexer :=
  if l.inFlow then l
  else
    let (left, closed) := closeTo column l.indents
    { l with indents := left
             tokens := List.replicate closed .blockEnd ++ l.tokens
             count := l.count + closed }

/-- Opens a block collection at `column`, unless one is open there; `start` goes in after `count`
tokens. -/
def openBlock (l : Lexer) (column count : Nat) (start : Token) : Lexer :=
  if l.indent < column then { l.insert count start with indents := column :: l.indents } else l

/-! ### Fetching tokens -/

/-- Adds an indicator of `width` characters. -/
def indicator (l : Lexer) (t : Token) (width : Nat) : Lexer :=
  { l.add t with rest := l.rest.drop width }

def streamEnd (l : Lexer) : Except Error Lexer := do
  let l ← (l.unwind (-1)).forget
  .ok (l.add .streamEnd)

def directive (l : Lexer) : Except Error Lexer := do
  let l ← (l.unwind (-1)).forget
  let (token, rest) ← Token.scanDirective l.rest
  .ok { l.add token with keyAllowed := false, rest }

def documentMark (l : Lexer) (t : Token) : Except Error Lexer := do
  let l ← (l.unwind (-1)).forget
  .ok { l.indicator t 3 with keyAllowed := false }

def flowStart (l : Lexer) (t : Token) : Except Error Lexer := do
  let l ← l.remember
  .ok { l.indicator t 1 with
        keyAllowed := true, keyPlace := none, outerPlaces := l.keyPlace :: l.outerPlaces }

/-- A closing bracket or brace. One that closes nothing is out of place. -/
def flowEnd (l : Lexer) (t : Token) : Except Error Lexer := do
  let l ← l.forget
  match l.outerPlaces with
  | [] => malformed (.unexpected t.name)
  | place :: outer =>
    .ok { l.indicator t 1 with keyAllowed := false, keyPlace := place, outerPlaces := outer }

def flowEntry (l : Lexer) : Except Error Lexer := do
  let l ← l.forget
  .ok { l.indicator .flowEntry 1 with keyAllowed := true }

/-- An indicator that, in block context, may open a collection at its column. -/
def blockIndicator (l : Lexer) (t start : Token) (p : Problem) (keyAllowed : Bool) :
    Except Error Lexer := do
  let l ← if l.inFlow then .ok l
    else if !l.keyAllowed then malformed p
    else .ok (l.openBlock l.column l.count start)
  let l ← l.forget
  .ok { l.indicator t 1 with keyAllowed }

def entry (l : Lexer) : Except Error Lexer :=
  l.blockIndicator .entry .sequenceStart .misplacedEntry true

def key (l : Lexer) : Except Error Lexer :=
  l.blockIndicator .key .mappingStart .misplacedKey !l.inFlow

/-- A `:` makes a key of what stands before it, if that can be one. -/
def value (l : Lexer) : Except Error Lexer :=
  match l.keyPlace with
  | some k =>
    let l := { l.insert k.count .key with keyPlace := none }
    let l := if l.inFlow then l else l.openBlock k.place.column k.count .mappingStart
    .ok { l.indicator .value 1 with keyAllowed := false }
  | none => l.blockIndicator .value .mappingStart .misplacedValue !l.inFlow

/-- A token that a key may start with, and after which none may start. -/
def content (l : Lexer) (scan : Source → Except Error (Token × Source)) : Except Error Lexer := do
  let l ← l.remember
  let (token, rest) ← scan l.rest
  .ok { l.add token with keyAllowed := false, rest }

def plain (l : Lexer) : Except Error Lexer := do
  let l ← l.remember
  let p := Scalar.plain l.inFlow (l.indent + 1).toNat l.rest
  .ok { l.add (.scalar (String.ofList p.text) true) with keyAllowed := p.brokeLine, rest := p.rest }

def quoted (l : Lexer) (double : Bool) : Except Error Lexer :=
  l.content fun s => do
    let (text, rest) ← Scalar.quoted double (s.drop 1)
    .ok (.scalar (String.ofList text) false, rest)

def block (l : Lexer) (folded : Bool) : Except Error Lexer := do
  let l ← l.forget
  let (text, rest) ← Scalar.block folded l.indent (l.rest.drop 1)
  .ok { l.add (.scalar (String.ofList text) false) with keyAllowed := true, rest }

/-- Whether a plain scalar can start with `c` before `next`. -/
def startsPlain (inFlow : Bool) (c next : Char) : Bool :=
  !(endsWord c || "-?:,[]{}#&*!|>'\"%@\x60".toList.contains c) ||
    (!endsWord next && (c == '-' || (!inFlow && (c == '?' || c == ':'))))

/-! ### Steps -/

/-- Goes to the next token, over spaces, comments and line breaks. -/
def skipGap : Nat → Lexer → Lexer
  | 0, l => l
  | fuel + 1, l =>
    let rest := l.rest.skipSpaces.skipComment
    match rest.lineBreak? with
    | none => { l with rest }
    | some (_, rest) => skipGap fuel { l with rest, keyAllowed := l.keyAllowed || !l.inFlow }

/-- Adds the token at which the text stands. -/
def fetch (l : Lexer) : Except Error Lexer :=
  let s := l.rest
  let c := s.peek
  let next := s.peekAt 1
  if c == stop then l.streamEnd
  else if c == '%' && l.column == 0 then l.directive
  else if l.column == 0 && s.isMark '-' then l.documentMark .documentStart
  else if l.column == 0 && s.isMark '.' then l.documentMark .documentEnd
  else if c == '[' then l.flowStart .flowSequenceStart
  else if c == '{' then l.flowStart .flowMappingStart
  else if c == ']' then l.flowEnd .flowSequenceEnd
  else if c == '}' then l.flowEnd .flowMappingEnd
  else if c == ',' then l.flowEntry
  else if c == '-' && endsWord next then l.entry
  else if c == '?' && (l.inFlow || endsWord next) then l.key
  else if c == ':' && (l.inFlow || endsWord next) then l.value
  else if c == '*' then l.content Token.scanAlias
  else if c == '&' then l.content Token.scanAnchor
  else if c == '!' then l.content Token.scanTag
  else if c == '|' && !l.inFlow then l.block false
  else if c == '>' && !l.inFlow then l.block true
  else if c == '\'' then l.quoted false
  else if c == '"' then l.quoted true
  else if startsPlain l.inFlow c next then l.plain
  else malformed (.noToken c)

/-- Adds the next token, after the ends of the collections that do not reach it. -/
def step (l : Lexer) : Except Error Lexer := do
  let l ← (l.skipGap l.rest.length).forgetStale
  (l.unwind l.column).fetch

/-- Steps until the stream ends or cannot be read on. -/
def run : Nat → Lexer → List Token
  | 0, l => l.tokens
  | fuel + 1, l =>
    match l.step with
    | .error e => .broken e :: l.tokens
    | .ok l => match l.tokens with
      | .streamEnd :: _ => l.tokens
      | _ => run fuel l

def start (s : Source) : Lexer where
  rest := if s.peek == byteOrderMark then s.drop 1 else s
  tokens := []
  count := 0
  indents := []
  keyAllowed := true
  keyPlace := none
  outerPlaces := []

end Lexer

/-- The tokens of a text. The last one ends the stream or says why it cannot be read on. -/
def Token.stream (s : Text) : List Token :=
  let source := Source.locate s
  (Lexer.run (source.length + 1) (Lexer.start source)).reverse

end Rulebook.Yaml
