import Rulebook.Yaml.Error
import Rulebook.Yaml.Glyph

/-!
# Scalars

The text of a scalar in each of its styles: plain, in single or double quotes, and the literal and
folded blocks. Lines that belong together are joined by a blank, and an empty line between two
lines stands for a line break.

Each reader returns the text and what follows it.
-/

namespace Rulebook.Yaml.Scalar

open Source

def malformed (p : Problem) : Except Error α := .error (.malformed p)

/-- A line break between two lines: a plain one becomes a blank unless empty lines follow. -/
def joint (lineBreak : Char) (breaks : Text) : Text :=
  if lineBreak != '\n' then lineBreak :: breaks
  else if breaks.isEmpty then [' ']
  else breaks

/-! ### Plain scalars -/

/-- In a flow collection its punctuation ends a plain scalar. -/
def endsPlain (inFlow : Bool) (c next : Char) : Bool :=
  endsWord c ||
    (c == ':' && (endsWord next || (inFlow && [',', '[', ']', '{', '}'].contains next))) ||
    (inFlow && [',', '?', '[', ']', '{', '}'].contains c)

/-- The longest start of `s` without blanks that can be in a plain scalar. -/
def plainWord (inFlow : Bool) : Source → Text × Source
  | [] => ([], [])
  | g :: s =>
    if endsPlain inFlow g.char (Source.peek s) then ([], g :: s)
    else
      let (word, rest) := plainWord inFlow s
      (g.char :: word, rest)

/-- Line breaks and spaces at the start of `s`; none if the document ends among them. -/
def plainBreaks : Nat → Source → Option Text × Source
  | 0, s => (some [], s)
  | fuel + 1, s =>
    let s := s.skipSpaces
    match s.lineBreak? with
    | none => (some [], s)
    | some (b, rest) =>
      if rest.isDocumentMark then (none, rest)
      else
        let (breaks, rest) := plainBreaks fuel rest
        (breaks.map (b :: ·), rest)

/-- What joins two words of a plain scalar, whether it breaks a line, and what follows it. -/
structure PlainGap where
  text : Text
  breaksLine : Bool
  rest : Source

def plainGap (s : Source) : PlainGap :=
  let rest := s.skipSpaces
  match rest.lineBreak? with
  | none => ⟨s.takeWhile (· == ' '), false, rest⟩
  | some (b, rest) =>
    if rest.isDocumentMark then ⟨[], true, rest⟩
    else match plainBreaks rest.length rest with
      | (none, rest) => ⟨[], true, rest⟩
      | (some breaks, rest) => ⟨joint b breaks, true, rest⟩

/-- A plain scalar, and whether the line was broken after its last word. -/
structure Plain where
  text : Text
  brokeLine : Bool
  rest : Source

/-- Words from `s` on, joined to the text before them by `gap`; lines go on at the column
`indent` or further right, in a flow collection anywhere. -/
def plainFrom (inFlow : Bool) (indent : Nat) : Nat → PlainGap → Plain
  | 0, gap => ⟨[], gap.breaksLine, gap.rest⟩
  | fuel + 1, gap =>
    if gap.rest.peek == '#' then ⟨[], gap.breaksLine, gap.rest⟩
    else
      let (word, rest) := plainWord inFlow gap.rest
      if word.isEmpty then ⟨[], gap.breaksLine, gap.rest⟩
      else
        let next := plainGap rest
        if next.text.isEmpty || (!inFlow && next.rest.column < indent) then
          ⟨gap.text ++ word, next.breaksLine, next.rest⟩
        else
          let more := plainFrom inFlow indent fuel next
          ⟨gap.text ++ word ++ more.text, more.brokeLine, more.rest⟩

def plain (inFlow : Bool) (indent : Nat) (s : Source) : Plain :=
  plainFrom inFlow indent (s.length + 1) ⟨[], false, s⟩

/-! ### Quoted scalars -/

/-- What a backslash and `c` stand for. -/
def escape? (c : Char) : Option Char :=
  [('0', '\x00'), ('a', '\x07'), ('b', '\x08'), ('t', '\t'), ('\t', '\t'), ('n', '\n'),
    ('v', '\x0B'), ('f', '\x0C'), ('r', '\r'), ('e', '\x1B'), (' ', ' '), ('"', '"'),
    ('\\', '\\'), ('/', '/'), ('N', '\x85'), ('_', '\xA0'), ('L', '\u2028'),
    ('P', '\u2029')].lookup c

/-- How many hexadecimal digits follow a backslash and `c`. -/
def escapeWidth? (c : Char) : Option Nat := [('x', 2), ('u', 4), ('U', 8)].lookup c

/-- Half of a surrogate pair is no character by itself. -/
def ofCode (code : Nat) : Except Error Char :=
  if 0x110000 ≤ code then .error (.fault (.badValue .codePoint))
  else if 0xD800 ≤ code && code < 0xE000 then .ok '\uFFFD'
  else .ok (Char.ofNat code)

/-- The number that `width` hexadecimal digits at the start of `s` write. -/
def hexCode (width : Nat) (s : Source) : Except Error Nat :=
  match (Source.text (s.take width)).mapM Digit.hex? with
  | some digits => if digits.length = width then .ok (Literal.ofDigits 16 digits)
    else malformed .escape
  | none => malformed .escape

/-- The empty lines that follow a line break inside quotes. -/
def quotedBreaks : Nat → Source → Except Error (Text × Source)
  | 0, s => .ok ([], s)
  | fuel + 1, s =>
    if s.isDocumentMark then malformed .markInQuotes
    else
      let rest := s.dropWhile Blank.isSpaceOrTab
      match rest.lineBreak? with
      | none => .ok ([], rest)
      | some (b, rest) => do
        let (breaks, rest) ← quotedBreaks fuel rest
        .ok (b :: breaks, rest)

/-- The piece of a double-quoted scalar that a backslash before `s` announces. -/
def escaped (s : Source) : Except Error (Text × Source) :=
  match escape? s.peek, escapeWidth? s.peek, s.lineBreak? with
  | some c, _, _ => .ok ([c], s.drop 1)
  | _, some width, _ => do
    let c ← ofCode (← hexCode width (s.drop 1))
    .ok ([c], s.drop (width + 1))
  | _, _, some (_, rest) => quotedBreaks rest.length rest
  | _, _, _ => malformed .escape

/-- Whether `c` stands for itself inside quotes of either kind. -/
def isOrdinary (c : Char) : Bool := c != '\'' && c != '"' && c != '\\' && !endsWord c

/-- The piece of a quoted scalar at the start of `s`; none at the closing quote. -/
def quotedPiece (double : Bool) (s : Source) : Except Error (Option Text × Source) :=
  let c := s.peek
  let given (piece : Text × Source) : Option Text × Source := (some piece.1, piece.2)
  if c == stop then malformed .openQuote
  else if c == '"' && double then .ok (none, s.drop 1)
  else if c == '\'' && !double then
    .ok (if s.peekAt 1 == '\'' then (some ['\''], s.drop 2) else (none, s.drop 1))
  else if c == '\\' && double then given <$> escaped (s.drop 1)
  else if endsWord c then
    let blanks := s.takeWhile Blank.isSpaceOrTab
    let rest := s.dropWhile Blank.isSpaceOrTab
    match rest.lineBreak? with
    | none => .ok (some blanks, rest)
    | some (b, rest) => do
      let (breaks, rest) ← quotedBreaks rest.length rest
      .ok (some (joint b breaks), rest)
  else
    let run := s.takeWhile isOrdinary
    .ok (if run.isEmpty then (some [c], s.drop 1) else (some run, s.drop run.length))

def quotedFrom (double : Bool) : Nat → Source → Except Error (Text × Source)
  | 0, _ => malformed .openQuote
  | fuel + 1, s => do
    match ← quotedPiece double s with
    | (none, rest) => .ok ([], rest)
    | (some piece, rest) =>
      let (more, rest) ← quotedFrom double fuel rest
      .ok (piece ++ more, rest)

/-- A quoted scalar after its opening quote. -/
def quoted (double : Bool) (s : Source) : Except Error (Text × Source) :=
  quotedFrom double s.length s

/-! ### Block scalars -/

/-- What becomes of the line breaks at the end of a block. -/
inductive Chomping where
  | strip
  | clip
  | keep
  deriving DecidableEq, Repr

def chomping? (c : Char) : Option Chomping := [('+', Chomping.keep), ('-', .strip)].lookup c

/-- The indentation that a header gives, a digit but zero. -/
def increment (c : Char) : Except Error (Option Nat) :=
  if c.isDigit then (if c == '0' then malformed .blockHeader else .ok (some (c.toNat - 48)))
  else .ok none

/-- The header of a block: chomping and indentation in either order. -/
def blockHeader (s : Source) : Except Error (Chomping × Option Nat × Source) :=
  match chomping? s.peek with
  | some chomping => do
    match ← increment (s.peekAt 1) with
    | some n => .ok (chomping, some n, s.drop 2)
    | none => .ok (chomping, none, s.drop 1)
  | none => do
    match ← increment s.peek with
    | none => .ok (.clip, none, s)
    | some n => match chomping? (s.peekAt 1) with
      | some chomping => .ok (chomping, some n, s.drop 2)
      | none => .ok (.clip, some n, s.drop 1)

/-- The rest of a line on which only a comment may stand. -/
def ignoredLine (p : Problem) (s : Source) : Except Error Source :=
  let rest := s.skipSpaces.skipComment
  if endsLine rest.peek then .ok ((rest.lineBreak?.map (·.2)).getD rest) else malformed p

/-- Empty lines before the first line of a block, and the greatest column that spaces reach. -/
def leadingBreaks : Nat → Source → Text × Nat × Source
  | 0, s => ([], 0, s)
  | fuel + 1, s =>
    let rest := s.skipSpaces
    let reached := if s.peek == ' ' then rest.column else 0
    match rest.lineBreak? with
    | none => ([], reached, rest)
    | some (b, rest) =>
      let (breaks, column, rest) := leadingBreaks fuel rest
      (b :: breaks, max reached column, rest)

/-- Skips spaces up to the column `indent`. -/
def skipIndent (indent : Nat) : Source → Source
  | [] => []
  | g :: s => if g.column < indent && g.char == ' ' then skipIndent indent s else g :: s

/-- Empty lines of a block whose lines start at the column `indent`. -/
def blockBreaks (indent : Nat) : Nat → Source → Text × Source
  | 0, s => ([], s)
  | fuel + 1, s =>
    let rest := skipIndent indent s
    match rest.lineBreak? with
    | none => ([], rest)
    | some (b, rest) =>
      let (breaks, rest) := blockBreaks indent fuel rest
      (b :: breaks, rest)

/-- A block up to its last line: the text, the break after the last line, the empty lines after
it, and what follows. -/
structure BlockText where
  text : Text
  lastBreak : Text
  breaks : Text
  rest : Source

/-- Lines from `s` on; `breaks` are the empty lines before them. -/
def blockLines (folded : Bool) (indent : Nat) : Nat → Text → Text → Source → BlockText
  | 0, lastBreak, breaks, s => ⟨[], lastBreak, breaks, s⟩
  | fuel + 1, lastBreak, breaks, s =>
    if s.column != indent || s.peek == stop then ⟨[], lastBreak, breaks, s⟩
    else
      let line := s.takeWhile (!endsLine ·)
      let rest := s.dropWhile (!endsLine ·)
      let (lineBreak, rest) := match rest.lineBreak? with
        | some (b, rest) => ([b], rest)
        | none => ([], rest)
      let (next, rest) := blockBreaks indent rest.length rest
      if rest.column == indent && rest.peek != stop then
        let folds := folded && lineBreak == ['\n'] && !Blank.isSpaceOrTab s.peek &&
          !Blank.isSpaceOrTab rest.peek
        let gap := if folds then (if next.isEmpty then [' '] else []) else lineBreak
        let more := blockLines folded indent fuel lineBreak next rest
        ⟨breaks ++ line ++ gap ++ more.text, more.lastBreak, more.breaks, more.rest⟩
      else ⟨breaks ++ line, lineBreak, next, rest⟩

/-- A block scalar after its indicator, in a collection whose column is `parent`. -/
def block (folded : Bool) (parent : Int) (s : Source) : Except Error (Text × Source) := do
  let (chomping, increment, rest) ← blockHeader s
  if !endsSpaced rest.peek then malformed .blockHeader
  let rest ← ignoredLine .blockHeader rest
  let least := max 1 (parent + 1).toNat
  let (indent, breaks, rest) := match increment with
    | none =>
      let (breaks, column, rest) := leadingBreaks rest.length rest
      (max least column, breaks, rest)
    | some n =>
      let (breaks, rest) := blockBreaks (least + n - 1) rest.length rest
      (least + n - 1, breaks, rest)
  let body := blockLines folded indent rest.length [] breaks rest
  let tail := match chomping with
    | .strip => []
    | .clip => body.lastBreak
    | .keep => body.lastBreak ++ body.breaks
  .ok (body.text ++ tail, body.rest)

end Rulebook.Yaml.Scalar
