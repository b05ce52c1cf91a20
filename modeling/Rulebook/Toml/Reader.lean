import Rulebook.Toml.Scalar
import Rulebook.Toml.Table

/-!
# Reading TOML

A document is a list of statements, one a line: a key with a value, or the declaration of the
table that the keys after it belong to.
-/

namespace Rulebook.Toml

/-- Blanks, line feeds and comments inside an array. -/
def skipArrayGap : Nat → Text → Except Error Text
  | 0, s => .ok s
  | fuel + 1, s => do
    let rest ← skipComment (skipBlankLines s)
    if rest.length = s.length then .ok rest else skipArrayGap fuel rest

mutual

/-- The value at the start of `s`. -/
def value : Nat → Text → Except Error (Value × Text)
  | 0, _ => malformed .value
  | fuel + 1, s =>
    match s with
    | '[' :: s => do
      let s ← skipArrayGap s.length s
      let (items, rest) ← arrayItems fuel s
      .ok (.list items, rest)
    | '{' :: s =>
      match skipBlanks s with
      | '}' :: rest => .ok (.map [], rest)
      | s => do
        let (es, rest) ← inlineItems fuel ⟨[], []⟩ s
        .ok (.map es, rest)
    | s => scalar s

/-- The rest of an array, from an item or the closing bracket on. -/
def arrayItems : Nat → Text → Except Error (List Value × Text)
  | 0, _ => malformed .array
  | fuel + 1, s =>
    match s with
    | ']' :: rest => .ok ([], rest)
    | s => do
      let (v, rest) ← value fuel s
      match ← skipArrayGap rest.length rest with
      | ']' :: rest => .ok ([v], rest)
      | ',' :: rest =>
        let (vs, rest) ← arrayItems fuel (← skipArrayGap rest.length rest)
        .ok (v :: vs, rest)
      | _ => malformed .array

/-- The rest of an inline table, from a key on. -/
def inlineItems : Nat → Inline → Text → Except Error (Entries × Text)
  | 0, _, _ => malformed .inlineTable
  | fuel + 1, t, s => do
    let (k, v, rest) ← pair fuel s
    let t ← t.assign k v
    match skipBlanks rest with
    | '}' :: rest => .ok (t.entries, rest)
    | ',' :: rest => inlineItems fuel t (skipBlanks rest)
    | _ => malformed .inlineTable

/-- A key, an equals sign and a value. -/
def pair : Nat → Text → Except Error (Key × Value × Text)
  | 0, _ => malformed .key
  | fuel + 1, s => do
    let (k, rest) ← key s.length s
    match rest with
    | '=' :: rest =>
      let (v, rest) ← value fuel (skipBlanks rest)
      .ok (k, v, rest)
    | _ => malformed .equals

end

/-- A declaration after its opening bracket. -/
def declaration (l : Layout) (s : Text) : Except Error (Layout × Text) :=
  match s with
  | '[' :: s => do
    let (k, rest) ← key s.length (skipBlanks s)
    let l ← l.settle.declareElement k
    match rest with
    | ']' :: ']' :: rest => .ok (l, rest)
    | _ => malformed .header
  | s => do
    let (k, rest) ← key s.length (skipBlanks s)
    let l ← l.settle.declareTable k
    match rest with
    | ']' :: rest => .ok (l, rest)
    | _ => malformed .header

/-- The statement at the start of `s`, which may be empty. -/
def statement (l : Layout) (s : Text) : Except Error (Layout × Text) :=
  match s with
  | [] => .ok (l, s)
  | '[' :: rest => declaration l rest
  | c :: _ =>
    if c == '\n' || c == '#' then .ok (l, s)
    else if isBare c || c == '"' || c == '\'' then do
      let (k, v, rest) ← pair (2 * s.length + 2) s
      .ok (← l.assign k v, rest)
    else malformed .statement

/-- Statements to the end, one a line. -/
def statements : Nat → Layout → Text → Except Error Layout
  | 0, l, _ => .ok l
  | fuel + 1, l, s => do
    let (l, rest) ← statement l (skipBlanks s)
    match ← skipComment (skipBlanks rest) with
    | [] => .ok l
    | '\n' :: rest => statements fuel l rest
    | _ => malformed .afterStatement

/-- A carriage return before a line feed does not count. -/
def withoutReturns : Text → Text
  | [] => []
  | '\r' :: '\n' :: s => '\n' :: withoutReturns s
  | c :: s => c :: withoutReturns s

/-- The entries of a document. -/
def read (s : Text) : Except Error Entries :=
  let s := withoutReturns s
  (statements (s.length + 1) Layout.empty s).map Layout.entries

end Rulebook.Toml
