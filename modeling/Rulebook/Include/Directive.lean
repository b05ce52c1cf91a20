import Rulebook.Text.Lines
import Rulebook.Text.Search

/-!
# Include directives

A line that names a Markdown file to be put in its place:

    @include shared/testing-basics.md

Blanks may stand before and after. A line ends at a line feed; one carriage return before it does
not belong to the directive.

## Main definitions

* `Directive.find`: the directives of a text with their places, in order.
-/

namespace Rulebook

/-- A directive: the path as written, the line, and its offset in the text. -/
structure Directive where
  path : Text
  line : Text
  start : Nat
  deriving DecidableEq, Repr

namespace Directive

def keyword : Text := "@include".toList

def suffix : Text := ".md".toList

/-- The offset after the line. -/
def stop (d : Directive) : Nat := d.start + d.line.length

/-- The path that a line asks for, if the line is a directive. Something has to stand before the
suffix, even if it is a blank. -/
def path? (line : Text) : Option Text :=
  match Search.dropStart? keyword (line.dropWhile Blank.isSpaceOrTab) with
  | some (blank :: rest) =>
    let target := Blank.dropEndWhile Blank.isSpaceOrTab rest
    if Blank.isSpaceOrTab blank && suffix.isSuffixOf target && suffix.length < target.length then
      some (Blank.trim target)
    else none
  | _ => none

/-- The directives in `lines`, the first of which starts at `offset`. -/
def findFrom (offset : Nat) : List Text → List Directive
  | [] => []
  | line :: lines =>
    let bare := Lines.withoutReturn line
    let more := findFrom (offset + line.length + 1) lines
    match path? bare with
    | some path => ⟨path, bare, offset⟩ :: more
    | none => more

def find (s : Text) : List Directive := findFrom 0 (Lines.byLineFeed s)

end Directive

end Rulebook
