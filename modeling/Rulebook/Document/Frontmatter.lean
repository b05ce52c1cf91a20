import Rulebook.Text.Blank
import Rulebook.Yaml.Value

/-!
# Frontmatter

A document can open with a block of metadata between two lines of three dashes:

    ---
    name: react-patterns
    ---

The block ends at the first line of dashes that leaves something between the two, be it an empty
line; only where there is none, a block with nothing inside is taken. Lines end in a line feed, or
in a carriage return and a line feed.

## Main definitions

* `Frontmatter.block?`: the block at the start of a text.
* `Frontmatter.prologue`, `Frontmatter.body`: a document cut after its block.
* `Document.parse`: a document with its block read as a mapping in YAML.
-/

namespace Rulebook

namespace Frontmatter

/-- A line end at the start of `s`, and what follows it. -/
def lineEnd? : Text → Option (Text × Text)
  | '\n' :: s => some (['\n'], s)
  | '\r' :: '\n' :: s => some (['\r', '\n'], s)
  | _ => none

/-- Three dashes at the start of `s` with the blanks after them, and what follows. -/
def dashes? : Text → Option (Text × Text)
  | '-' :: '-' :: '-' :: s =>
    some ('-' :: '-' :: '-' :: s.takeWhile Blank.isSpaceOrTab, s.dropWhile Blank.isSpaceOrTab)
  | _ => none

/-- A line of dashes that has to end in a line end. -/
def openingLine? (s : Text) : Option (Text × Text) :=
  match dashes? s with
  | none => none
  | some (dashes, rest) => (lineEnd? rest).map fun (e, rest) => (dashes ++ e, rest)

/-- A line of dashes that ends in a line end or with the text. -/
def closingLine? (s : Text) : Option (Text × Text) :=
  match dashes? s with
  | none => none
  | some (dashes, []) => some (dashes, [])
  | some (dashes, rest) => (lineEnd? rest).map fun (e, rest) => (dashes ++ e, rest)

/-- A line end and a closing line after it. -/
def close? (s : Text) : Option (Text × Text) :=
  match lineEnd? s with
  | none => none
  | some (e, rest) => (closingLine? rest).map fun (line, rest) => (e ++ line, rest)

/-- The shortest text before a close, the close, and what follows it. -/
def untilClose? : Text → Option (Text × Text × Text)
  | [] => none
  | c :: s =>
    match close? (c :: s) with
    | some (close, rest) => some ([], close, rest)
    | none => (untilClose? s).map fun (raw, close, rest) => (c :: raw, close, rest)

/-- A block of metadata: its text as it stands, the metadata in it, and what follows. -/
structure Block where
  text : Text
  raw : Text
  after : Text
  deriving DecidableEq, Repr

def block? (s : Text) : Option Block :=
  match openingLine? s with
  | none => none
  | some (line, rest) =>
    match untilClose? rest with
    | some (raw, close, after) => some ⟨line ++ raw ++ close, raw, after⟩
    | none => (closingLine? rest).map fun (close, after) => ⟨line ++ close, [], after⟩

/-- The block at the start of a document, with its dashes; empty when there is none. -/
def prologue (s : Text) : Text := ((block? s).map Block.text).getD []

/-- The document without its block. -/
def body (s : Text) : Text := ((block? s).map Block.after).getD s

/-! ### Nothing is lost -/

theorem lineEnd?_eq_some {s e rest : Text} (h : lineEnd? s = some (e, rest)) : s = e ++ rest := by
  unfold lineEnd? at h
  split at h
  · cases h; rfl
  · cases h; rfl
  · cases h

theorem dashes?_eq_some {s d rest : Text} (h : dashes? s = some (d, rest)) : s = d ++ rest := by
  unfold dashes? at h
  split at h
  · simp only [Option.some.injEq, Prod.mk.injEq] at h
    obtain ⟨rfl, rfl⟩ := h
    simp [List.takeWhile_append_dropWhile]
  · cases h

theorem openingLine?_eq_some {s line rest : Text} (h : openingLine? s = some (line, rest)) :
    s = line ++ rest := by
  unfold openingLine? at h
  split at h
  · cases h
  · rename_i d r hd
    simp only [Option.map_eq_some_iff, Prod.mk.injEq] at h
    obtain ⟨⟨e, t⟩, he, rfl, rfl⟩ := h
    rw [dashes?_eq_some hd, lineEnd?_eq_some he, List.append_assoc]

theorem closingLine?_eq_some {s line rest : Text} (h : closingLine? s = some (line, rest)) :
    s = line ++ rest := by
  unfold closingLine? at h
  split at h
  · cases h
  · rename_i d hd
    simp only [Option.some.injEq, Prod.mk.injEq] at h
    obtain ⟨rfl, rfl⟩ := h
    exact dashes?_eq_some hd
  · rename_i d r _ hd
    simp only [Option.map_eq_some_iff, Prod.mk.injEq] at h
    obtain ⟨⟨e, t⟩, he, rfl, rfl⟩ := h
    rw [dashes?_eq_some hd, lineEnd?_eq_some he, List.append_assoc]

theorem close?_eq_some {s close rest : Text} (h : close? s = some (close, rest)) :
    s = close ++ rest := by
  unfold close? at h
  split at h
  · cases h
  · rename_i e r he
    simp only [Option.map_eq_some_iff, Prod.mk.injEq] at h
    obtain ⟨⟨line, t⟩, hl, rfl, rfl⟩ := h
    rw [lineEnd?_eq_some he, closingLine?_eq_some hl, List.append_assoc]

theorem untilClose?_eq_some {s raw close rest : Text}
    (h : untilClose? s = some (raw, close, rest)) : s = raw ++ close ++ rest := by
  induction s generalizing raw with
  | nil => cases h
  | cons c s ih =>
    unfold untilClose? at h
    split at h
    · rename_i hc
      simp only [Option.some.injEq, Prod.mk.injEq] at h
      obtain ⟨rfl, rfl, rfl⟩ := h
      simpa using close?_eq_some hc
    · simp only [Option.map_eq_some_iff, Prod.mk.injEq] at h
      obtain ⟨⟨r, k, t⟩, ht, rfl, rfl, rfl⟩ := h
      simp [ih ht]

theorem block?_eq_some {s : Text} {b : Block} (h : block? s = some b) : s = b.text ++ b.after := by
  unfold block? at h
  split at h
  · cases h
  · rename_i line rest hl
    rw [openingLine?_eq_some hl]
    split at h
    · rename_i raw close after hu
      cases h
      simp [untilClose?_eq_some hu]
    · simp only [Option.map_eq_some_iff] at h
      obtain ⟨⟨close, after⟩, hc, rfl⟩ := h
      simp [closingLine?_eq_some hc]

theorem prologue_append_body (s : Text) : prologue s ++ body s = s := by
  unfold prologue body
  cases h : block? s with
  | none => simp
  | some b => simpa using (block?_eq_some h).symm

end Frontmatter

/-! ## Metadata -/

/-- A document taken apart: its metadata, as a mapping and as written, and its body. -/
structure Document where
  metadata : Entries
  raw : Text
  body : Text

namespace Document

def metadataOf (raw : Text) : Except Fault Entries :=
  if Blank.isAllBlank raw then .ok []
  else match Yaml.read raw with
    | .ok .null => .ok []
    | .ok (.map es) => .ok es
    | .ok v => .error (.badValue (.frontmatterNotAMapping v.kindName))
    | .error (.malformed p) => .error (.badValue (.invalidFrontmatter p.message))
    | .error (.fault f) => .error f

/-- Takes a document apart. Blank frontmatter is an empty mapping. -/
def parse (s : Text) : Except Fault Document :=
  match Frontmatter.block? s with
  | none => .ok ⟨[], [], s⟩
  | some b => (metadataOf b.raw).map fun metadata => ⟨metadata, b.raw, b.after⟩

end Document

end Rulebook
