import Rulebook.Yaml.Tag
import Rulebook.Yaml.Token.Stream

/-!
# Nodes

A document is a tree of nodes, each a scalar, a sequence or a mapping with a tag. An alias stands
for the node that its anchor names; where an alias stands inside that node, the node counts as
empty. Each mapping that is read has a mark of its own, which tells the places of one mapping from
mappings that are merely alike.

## Main definitions

* `Node.ofTokens`: the one document in a stream of tokens, if there is any.
-/

namespace Rulebook.Yaml

inductive Node where
  | scalar (tag : Tag) (text : Text)
  | sequence (tag : Tag) (items : List Node)
  | mapping (mark : Nat) (tag : Tag) (pairs : List (Node × Node))

/-- What is left to read, the nodes that anchors name, and the meaning of tag handles. -/
structure Reading where
  tokens : List Token
  anchors : List (String × Node)
  handles : List (String × String)

abbrev ReadM := StateT Reading (Except Error)

namespace ReadM

def problem (p : Problem) : ReadM α := throw (.malformed p)

/-- The next token. -/
def peek : ReadM Token := do return (← get).tokens.head?.getD .streamEnd

/-- How many tokens are left, which no two mappings have at their starts. -/
def left : ReadM Nat := do return (← get).tokens.length

def skip : ReadM Unit := modify fun r => { r with tokens := r.tokens.drop 1 }

/-- The next token cannot stand where it stands. -/
def unexpected : ReadM α := do
  match ← peek with
  | .broken e => throw e
  | t => problem (.unexpected t.name)

/-- Skips the next token if it is `t`. -/
def accept (t : Token) : ReadM Bool := do
  if (← peek) = t then
    skip
    return true
  else return false

def expect (t : Token) : ReadM Unit := do unless ← accept t do unexpected

/-- Whether the next token is one of `ts`. -/
def isNext (ts : List Token) : ReadM Bool := do return ts.contains (← peek)

end ReadM

namespace Node

open ReadM

/-- The node of nothing at all. -/
def empty : Node := .scalar .null []

/-! ### Anchors and tags -/

/-- What stands in front of a node. -/
structure Properties where
  anchor : Option String
  /-- The tag in full; a mere `!` asks for the tag that the node would have anyway. -/
  tag : Option String

def fullTag (name : TagName) : ReadM String := do
  match name.handle with
  | none => return name.suffix
  | some handle => match (← get).handles.lookup handle with
    | some start => return start ++ name.suffix
    | none => problem (.undefinedHandle handle)

def newAnchor (name : String) : ReadM String := do
  if ((← get).anchors.lookup name).isSome then problem (.repeatedAnchor name) else return name

/-- An anchor and a tag in either order, each of which may be missing. -/
def properties : ReadM Properties := do
  match ← peek with
  | .anchor name =>
    skip
    match ← peek with
    | .tag t =>
      skip
      return ⟨some (← newAnchor name), some (← fullTag t)⟩
    | _ => return ⟨some (← newAnchor name), none⟩
  | .tag t =>
    skip
    match ← peek with
    | .anchor name =>
      skip
      return ⟨some (← newAnchor name), some (← fullTag t)⟩
    | _ => return ⟨none, some (← fullTag t)⟩
  | _ => return ⟨none, none⟩

def tagOr (p : Properties) (default : Tag) : Tag :=
  match p.tag with
  | none | some "!" => default
  | some uri => .ofUri uri

def ofScalar (p : Properties) (text : String) (isPlain : Bool) : Node :=
  let tag := match p.tag with
    | none => if isPlain then .ofPlain text.toList else .str
    | some "!" => .ofPlain text.toList
    | some uri => .ofUri uri
  .scalar tag text.toList

def name (p : Properties) (n : Node) : ReadM Unit :=
  match p.anchor with
  | none => return
  | some name => modify fun r => { r with anchors := (name, n) :: r.anchors }

/-! ### Nodes and collections -/

mutual

/-- A node; `block` allows collections marked by indentation, and `indentless` a sequence at the
column of the mapping around it. -/
def read (block indentless : Bool) : Nat → ReadM Node
  | 0 => unexpected
  | fuel + 1 => do
    if let .alias name ← peek then
      skip
      match (← get).anchors.lookup name with
      | some n => return n
      | none => problem (.undefinedAlias name)
    else
      let mark ← left
      let p ← properties
      let sequence (items : ReadM (List Node)) : ReadM Node := do
        name p (.sequence (tagOr p .seq) [])
        return .sequence (tagOr p .seq) (← items)
      let mapping (pairs : ReadM (List (Node × Node))) : ReadM Node := do
        name p (.mapping mark (tagOr p .map) [])
        return .mapping mark (tagOr p .map) (← pairs)
      let n ← match ← peek, block with
        | .entry, _ => if indentless then sequence (readIndentless fuel) else noContent p
        | .scalar text isPlain, _ => do
          skip
          pure (ofScalar p text isPlain)
        | .flowSequenceStart, _ => do
          skip
          sequence (readFlowItems true fuel)
        | .flowMappingStart, _ => do
          skip
          mapping (readFlowPairs true fuel)
        | .sequenceStart, true => do
          skip
          sequence (readItems fuel)
        | .mappingStart, true => do
          skip
          mapping (readPairs fuel)
        | _, _ => noContent p
      name p n
      return n

/-- Only an anchor or a tag can stand for an empty node. -/
def noContent (p : Properties) : ReadM Node :=
  if p.anchor.isSome || p.tag.isSome then return ofScalar p "" true else unexpected

/-- The rest of a block sequence. -/
def readItems : Nat → ReadM (List Node)
  | 0 => unexpected
  | fuel + 1 => do
    if ← accept .entry then
      let n ← if ← isNext [.entry, .blockEnd] then pure empty else read true false fuel
      return n :: (← readItems fuel)
    else
      expect .blockEnd
      return []

/-- The rest of a sequence that ends with the mapping around it. -/
def readIndentless : Nat → ReadM (List Node)
  | 0 => unexpected
  | fuel + 1 => do
    if ← accept .entry then
      let n ← if ← isNext [.entry, .key, .value, .blockEnd] then pure empty
        else read true false fuel
      return n :: (← readIndentless fuel)
    else return []

/-- What follows a key or value indicator in a block mapping. -/
def readBlockPart (indicator : Token) : Nat → ReadM Node
  | 0 => unexpected
  | fuel + 1 => do
    if ← accept indicator then
      if ← isNext [.key, .value, .blockEnd] then return empty else read true true fuel
    else return empty

/-- The rest of a block mapping. -/
def readPairs : Nat → ReadM (List (Node × Node))
  | 0 => unexpected
  | fuel + 1 => do
    if ← isNext [.key] then
      let k ← readBlockPart .key fuel
      let v ← readBlockPart .value fuel
      return (k, v) :: (← readPairs fuel)
    else
      expect .blockEnd
      return []

/-- What follows a key or value indicator in a flow collection that `close` ends. -/
def readFlowPart (indicator close : Token) : Nat → ReadM Node
  | 0 => unexpected
  | fuel + 1 => do
    if ← accept indicator then
      let ends := if indicator = .key then [.value, .flowEntry, close] else [.flowEntry, close]
      if ← isNext ends then return empty else read false false fuel
    else return empty

/-- The rest of a flow sequence, at its start if `first`. -/
def readFlowItems (first : Bool) : Nat → ReadM (List Node)
  | 0 => unexpected
  | fuel + 1 => do
    if ← accept .flowSequenceEnd then return []
    else
      unless first do expect .flowEntry
      let mark ← left
      if ← isNext [.key] then
        let k ← readFlowPart .key .flowSequenceEnd fuel
        let v ← readFlowPart .value .flowSequenceEnd fuel
        return .mapping mark .map [(k, v)] :: (← readFlowItems false fuel)
      else if ← accept .flowSequenceEnd then return []
      else
        let n ← read false false fuel
        return n :: (← readFlowItems false fuel)

/-- The rest of a flow mapping, at its start if `first`. -/
def readFlowPairs (first : Bool) : Nat → ReadM (List (Node × Node))
  | 0 => unexpected
  | fuel + 1 => do
    if ← accept .flowMappingEnd then return []
    else
      unless first do expect .flowEntry
      if ← isNext [.key] then
        let k ← readFlowPart .key .flowMappingEnd fuel
        let v ← readFlowPart .value .flowMappingEnd fuel
        return (k, v) :: (← readFlowPairs false fuel)
      else if ← accept .flowMappingEnd then return []
      else
        let k ← read false false fuel
        return (k, empty) :: (← readFlowPairs false fuel)

end

/-! ### Documents -/

def defaultHandles : List (String × String) := [("!", "!"), ("!!", Tag.standard)]

/-- The directives before a document, as the handles that they define. -/
def readDirectives (versionSeen : Bool) : Nat → List (String × String) →
    ReadM (List (String × String))
  | 0, handles => return handles
  | fuel + 1, handles => do
    match ← peek with
    | .directive d =>
      skip
      match d with
      | .version major =>
        if versionSeen then problem .repeatedVersion
        if major ≠ 1 then problem .version
        readDirectives true fuel handles
      | .handle handle text =>
        if (handles.lookup handle).isSome then problem (.repeatedHandle handle)
        readDirectives versionSeen fuel ((handle, text) :: handles)
      | .other => readDirectives versionSeen fuel handles
    | _ => return handles

def isDirective : Token → Bool
  | .directive _ => true
  | _ => false

/-- The document at the start of the stream. -/
def readDocument (fuel : Nat) : ReadM (Option Node) := do
  let t ← peek
  if t = .streamEnd then return none
  else if t = .documentStart || isDirective t then
    let handles ← readDirectives false fuel []
    modify fun r => { r with handles := handles ++ defaultHandles }
    expect .documentStart
    let next ← peek
    if isDirective next || [.documentStart, .documentEnd, .streamEnd].contains next then
      return some empty
    else return some (← read true false fuel)
  else return some (← read true false fuel)

def skipDocumentEnds : Nat → ReadM Unit
  | 0 => return
  | fuel + 1 => do if ← accept .documentEnd then skipDocumentEnds fuel

def readStream (fuel : Nat) : ReadM (Option Node) := do
  let n ← readDocument fuel
  skipDocumentEnds fuel
  match ← peek with
  | .streamEnd => return n
  | .broken e => throw e
  | _ => problem .severalDocuments

/-- The only document in a stream, none in an empty one. -/
def ofTokens (tokens : List Token) : Except Error (Option Node) :=
  (readStream (3 * tokens.length + 3)).run' ⟨tokens, [], defaultHandles⟩

end Node

end Rulebook.Yaml
