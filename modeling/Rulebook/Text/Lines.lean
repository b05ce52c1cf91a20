import Rulebook.Text.Blank

/-!
# Lines

Two readings of text as lines: the logical lines that every line or paragraph boundary ends, and
the lines that a line feed alone separates.
-/

namespace Rulebook.Lines

/-- Line feed, carriage return, vertical tab, form feed, file to record separators, next line, and
the line and paragraph separators. -/
def isBoundary (c : Char) : Bool :=
  let n := c.toNat
  (0x0A ≤ n && n ≤ 0x0D) || (0x1C ≤ n && n ≤ 0x1E) || n == 0x85 || n == 0x2028 || n == 0x2029

/-- Logical lines without their boundaries; `line` is the reversed start of the current one.
A carriage return and line feed together are one boundary. -/
def logicalFrom (line : Text) : Text → List Text
  | [] => if line.isEmpty then [] else [line.reverse]
  | '\r' :: '\n' :: s => line.reverse :: logicalFrom [] s
  | c :: s =>
    if isBoundary c then line.reverse :: logicalFrom [] s else logicalFrom (c :: line) s

def logical (s : Text) : List Text := logicalFrom [] s

/-- Every carriage return, alone or before a line feed, becomes one line feed. -/
def unifyEnds : Text → Text
  | [] => []
  | '\r' :: '\n' :: s => '\n' :: unifyEnds s
  | '\r' :: s => '\n' :: unifyEnds s
  | c :: s => c :: unifyEnds s

theorem not_mem_unifyEnds (s : Text) : '\r' ∉ unifyEnds s := by
  fun_induction unifyEnds s with
  | case1 => simp
  | case2 s ih => simpa using ih
  | case3 s _ ih => simpa using ih
  | case4 c s _ hc ih =>
    simp only [List.mem_cons, not_or]
    exact ⟨fun h => hc h.symm, ih⟩

/-- The pieces between line feeds, at least one. -/
def byLineFeed (s : Text) : List Text := Blank.splitWhere (· == '\n') s

theorem intercalate_byLineFeed (s : Text) : ['\n'].intercalate (byLineFeed s) = s :=
  Blank.intercalate_splitWhere '\n' s

theorem not_mem_of_mem_byLineFeed {s line : Text} (h : line ∈ byLineFeed s) : '\n' ∉ line :=
  fun hc => by simpa using Blank.of_mem_splitWhere h _ hc

/-- A line without the single carriage return that may end it. -/
def withoutReturn (line : Text) : Text :=
  if line.getLast? = some '\r' then line.dropLast else line

end Rulebook.Lines
