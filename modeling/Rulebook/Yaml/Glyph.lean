import Rulebook.Text.Blank

/-!
# Located text

YAML gives meaning to the column in which a token starts, and to whether two things stand on one
line. A source is text whose characters know their places, with a stop mark at the end, so that
reading ahead needs no bounds.
-/

namespace Rulebook.Yaml

structure Glyph where
  char : Char
  line : Nat
  column : Nat
  offset : Nat
  deriving Repr

abbrev Source := List Glyph

/-- Stands after the last character. It never stands in text, being unprintable. -/
def stop : Char := '\x00'

/-- Invisible where it stands, it takes no column. -/
def byteOrderMark : Char := '\uFEFF'

def isBreak (c : Char) : Bool :=
  c == '\n' || c == '\r' || c == '\x85' || c == '\u2028' || c == '\u2029'

/-- A line break or the end. -/
def endsLine (c : Char) : Bool := c == stop || isBreak c

/-- What a word ends at: a blank, a line break or the end. -/
def endsWord (c : Char) : Bool := c == ' ' || c == '\t' || endsLine c

/-- As `endsWord`, but a tabulator goes on. -/
def endsSpaced (c : Char) : Bool := c == ' ' || endsLine c

namespace Source

def locateFrom (line column offset : Nat) : Text → Source
  | [] => [⟨stop, line, column, offset⟩]
  | c :: s =>
    let here := Glyph.mk c line column offset
    if isBreak c && !(c == '\r' && s.head? == some '\n') then
      here :: locateFrom (line + 1) 0 (offset + 1) s
    else if c == byteOrderMark then here :: locateFrom line column (offset + 1) s
    else here :: locateFrom line (column + 1) (offset + 1) s

def locate (s : Text) : Source := locateFrom 0 0 0 s

def text (s : Source) : Text := s.map Glyph.char

def peek (s : Source) : Char := (s.head?.map Glyph.char).getD stop

/-- The character `n` places ahead. -/
def peekAt (s : Source) (n : Nat) : Char := (s[n]?.map Glyph.char).getD stop

def column (s : Source) : Nat := (s.head?.map Glyph.column).getD 0

def takeWhile (p : Char → Bool) (s : Source) : Text := text (List.takeWhile (fun g => p g.char) s)

def dropWhile (p : Char → Bool) (s : Source) : Source := List.dropWhile (fun g => p g.char) s

def skipSpaces (s : Source) : Source := s.dropWhile (· == ' ')

/-- The line break at the start of `s`, as text takes it in, and what follows it. -/
def lineBreak? (s : Source) : Option (Char × Source) :=
  let c := s.peek
  if c == '\r' && s.peekAt 1 == '\n' then some ('\n', s.drop 2)
  else if c == '\r' || c == '\n' || c == '\x85' then some ('\n', s.drop 1)
  else if c == '\u2028' || c == '\u2029' then some (c, s.drop 1)
  else none

/-- What follows a comment at the start of `s`, or `s`. -/
def skipComment (s : Source) : Source :=
  if s.peek == '#' then s.dropWhile (!endsLine ·) else s

/-- Whether three times `c`, and then no more of the word, stands at the start of `s`. -/
def isMark (c : Char) (s : Source) : Bool :=
  s.peek == c && s.peekAt 1 == c && s.peekAt 2 == c && endsWord (s.peekAt 3)

/-- Whether the start or the end of a document is marked here. -/
def isDocumentMark (s : Source) : Bool := s.isMark '-' || s.isMark '.'

end Source

end Rulebook.Yaml
