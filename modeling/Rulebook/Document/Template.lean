import Rulebook.Target.Basic
import Rulebook.Text.Search
import Rulebook.Text.Lines

/-!
# Templates

A document body holds blocks for some targets between literal text:

    {{#claude|factory}}kept for these{{/claude|factory}}

The closing tag repeats the condition of the opening one letter by letter. A condition has no `}`
and no blank at either end. Blocks do not nest: the first closing tag ends the block, and its body
is plain text. An opening tag without its closing tag is plain text too.

## Main definitions

* `Block.read?`: the block at the start of a text.
* `Template.parse`: a text as literal text with blocks in between.
* `Template.render`: the text that a template leaves for one target.
-/

namespace Rulebook

structure Block where
  condition : Text
  body : Text
  deriving DecidableEq, Repr

namespace Block

def opening : Text := ['{', '{', '#']

def closing : Text := ['{', '{', '/']

def ending : Text := ['}', '}']

/-- The text of a block with its two tags. -/
def text (b : Block) : Text :=
  opening ++ b.condition ++ ending ++ b.body ++ closing ++ b.condition ++ ending

/-- What may stand in a tag. -/
def isCondition (s : Text) : Bool :=
  !s.contains '}' &&
    match s.head?, s.getLast? with
    | some first, some last => !Blank.isBlank first && !Blank.isBlank last
    | _, _ => false

/-- The condition of an opening tag at the start of `s`, and what follows the tag. -/
def openingTag? (s : Text) : Option (Text × Text) :=
  match Search.dropStart? opening s with
  | none => none
  | some rest =>
    let condition := rest.takeWhile (· ≠ '}')
    match Search.dropStart? ending (rest.dropWhile (· ≠ '}')) with
    | none => none
    | some inner => if isCondition condition then some (condition, inner) else none

/-- The block at the start of `s`, and what follows it. -/
def read? (s : Text) : Option (Block × Text) :=
  match openingTag? s with
  | none => none
  | some (condition, inner) =>
    match Search.split? (closing ++ condition ++ ending) inner with
    | none => none
    | some (body, rest) => some (⟨condition, body⟩, rest)

theorem openingTag?_eq_some {s condition inner : Text}
    (h : openingTag? s = some (condition, inner)) :
    s = opening ++ condition ++ ending ++ inner ∧ isCondition condition := by
  unfold openingTag? at h
  split at h
  · cases h
  · rename_i rest hr
    split at h
    · cases h
    · rename_i after ha
      simp only [Option.ite_none_right_eq_some, Option.some.injEq, Prod.mk.injEq] at h
      obtain ⟨hc, rfl, rfl⟩ := h
      refine ⟨?_, hc⟩
      rw [Search.dropStart?_eq_some.1 hr, List.append_assoc, List.append_assoc,
        ← Search.dropStart?_eq_some.1 ha, List.takeWhile_append_dropWhile]

theorem read?_eq_some {s rest : Text} {b : Block} (h : read? s = some (b, rest)) :
    s = b.text ++ rest ∧ isCondition b.condition := by
  unfold read? at h
  split at h
  · cases h
  · rename_i condition inner ho
    obtain ⟨hs, hc⟩ := openingTag?_eq_some ho
    split at h
    · cases h
    · rename_i body after hsp
      simp only [Option.some.injEq, Prod.mk.injEq] at h
      obtain ⟨rfl, rfl⟩ := h
      refine ⟨?_, hc⟩
      simp [hs, Search.split?_eq_some hsp, text]

theorem length_of_read? {s rest : Text} {b : Block} (h : read? s = some (b, rest)) :
    rest.length < s.length := by
  rw [(read?_eq_some h).1]
  simp [text, opening]
  omega

def isKept (b : Block) (t : Target) : Bool := (Audience.parse b.condition).admits t

end Block

/-- Literal text, and then blocks, each followed by more literal text. -/
structure Template where
  head : Text
  blocks : List (Block × Text)
  deriving DecidableEq, Repr

namespace Template

/-- The text as it was read. -/
def text (t : Template) : Text := t.head ++ t.blocks.flatMap fun (b, after) => b.text ++ after

/-- Takes every block where it starts, from left to right. -/
def parse : Text → Template
  | [] => ⟨[], []⟩
  | c :: s =>
    match _h : Block.read? (c :: s) with
    | some (b, rest) =>
      let t := parse rest
      ⟨[], (b, t.head) :: t.blocks⟩
    | none =>
      let t := parse s
      ⟨c :: t.head, t.blocks⟩
termination_by s => s.length
decreasing_by
  · exact Block.length_of_read? _h
  · exact Nat.lt_succ_self s.length

theorem text_parse (s : Text) : (parse s).text = s := by
  fun_induction parse s with
  | case1 => simp [text]
  | case2 c s b rest h t ih =>
    rw [(Block.read?_eq_some h).1]
    simpa [text, t] using ih
  | case3 c s h t ih => simpa [text, t] using ih

def kept (t : Template) (target : Target) : Nat := t.blocks.countP fun x => x.1.isKept target

def dropped (t : Template) (target : Target) : Nat := t.blocks.countP fun x => !x.1.isKept target

/-- The body of each block that is kept stands in its place. -/
def keep (t : Template) (target : Target) : Text :=
  t.head ++ t.blocks.flatMap fun (b, after) => (if b.isKept target then b.body else []) ++ after

end Template

/-! ## Tidying

Blocks that are taken out of a text leave blank lines and blanks behind. A tidy text has no space
or tabulator at the end of a line, no empty line at the start, no two empty lines in a row and no
empty line at the end.
-/

namespace Tidy

def trimLines (s : Text) : Text :=
  List.intercalate ['\n'] ((Lines.byLineFeed s).map (Blank.dropEndWhile Blank.isSpaceOrTab))

/-- Keeps at most two of the line feeds in a row; `seen` of them stand before `s`. -/
def squeeze (seen : Nat) : Text → Text
  | [] => []
  | c :: s =>
    if c = '\n' then (if seen < 2 then c :: squeeze (seen + 1) s else squeeze seen s)
    else c :: squeeze 0 s

/-- Keeps at most one line feed at the end. -/
def endLine (s : Text) : Text :=
  let bare := Blank.dropEndWhile (· == '\n') s
  if bare.length < s.length then bare ++ ['\n'] else bare

def tidy (s : Text) : Text := endLine (squeeze 0 ((trimLines s).dropWhile (· == '\n')))

end Tidy

/-- The text that `t` leaves for `target`. Without blocks, and where white space is to be kept, it
is not tidied. -/
def Template.render (t : Template) (target : Target) (keepSpace : Bool) : Text :=
  if t.blocks.isEmpty || keepSpace then t.keep target else Tidy.tidy (t.keep target)

end Rulebook
