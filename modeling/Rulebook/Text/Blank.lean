/-!
# Blanks

Blank characters of every script, trimming, and the words between blanks.
-/

namespace Rulebook

/-- Text is handled character by character. -/
abbrev Text := List Char

namespace Blank

/-- Spaces, line and paragraph breaks, tabulators and the four information separators. -/
def isBlank (c : Char) : Bool :=
  let n := c.toNat
  (0x09 ≤ n && n ≤ 0x0D) || (0x1C ≤ n && n ≤ 0x20) || n == 0x85 || n == 0xA0 || n == 0x1680 ||
    (0x2000 ≤ n && n ≤ 0x200A) || n == 0x2028 || n == 0x2029 || n == 0x202F || n == 0x205F ||
    n == 0x3000

/-- A space or a tabulator, the only blanks that stay within a line of markup. -/
def isSpaceOrTab (c : Char) : Bool := c == ' ' || c == '\t'

theorem isBlank_of_isSpaceOrTab {c : Char} (h : isSpaceOrTab c = true) : isBlank c = true := by
  simp only [isSpaceOrTab, Bool.or_eq_true, beq_iff_eq] at h
  rcases h with rfl | rfl <;> decide

/-- Drops the longest end of `s` on which `p` holds. -/
def dropEndWhile (p : Char → Bool) (s : Text) : Text := (s.reverse.dropWhile p).reverse

def trimStart (s : Text) : Text := s.dropWhile isBlank

def trimEnd (s : Text) : Text := dropEndWhile isBlank s

def trim (s : Text) : Text := trimEnd (trimStart s)

def isAllBlank (s : Text) : Bool := s.all isBlank

/-- The pieces of `s` between the characters on which `p` holds, at least one. -/
def splitWhere (p : Char → Bool) : Text → List Text
  | [] => [[]]
  | c :: s =>
    if p c then [] :: splitWhere p s
    else match splitWhere p s with
      | [] => [[c]]
      | piece :: pieces => (c :: piece) :: pieces

theorem splitWhere_ne_nil (p : Char → Bool) (s : Text) : splitWhere p s ≠ [] := by
  cases s with
  | nil => simp [splitWhere]
  | cons c s =>
    unfold splitWhere
    split
    · simp
    · split <;> simp

theorem of_mem_splitWhere {p : Char → Bool} {s piece : Text} (h : piece ∈ splitWhere p s) :
    ∀ c ∈ piece, p c = false := by
  induction s generalizing piece with
  | nil => simp [splitWhere] at h; simp [h]
  | cons c s ih =>
    unfold splitWhere at h
    split at h
    · rcases List.mem_cons.1 h with rfl | h
      · simp
      · exact ih h
    · rename_i hc
      split at h
      · rename_i hs
        exact absurd hs (splitWhere_ne_nil p s)
      · rename_i first more hs
        rcases List.mem_cons.1 h with rfl | h
        · have hf := ih (hs ▸ List.mem_cons_self)
          intro d hd
          rcases List.mem_cons.1 hd with rfl | hd
          · simpa using hc
          · exact hf d hd
        · exact ih (hs ▸ List.mem_cons_of_mem _ h)

theorem intercalate_splitWhere (c : Char) (s : Text) :
    [c].intercalate (splitWhere (· == c) s) = s := by
  induction s with
  | nil => rfl
  | cons d s ih =>
    unfold splitWhere
    split
    · rename_i hd
      obtain rfl : d = c := by simpa using hd
      cases h : splitWhere (· == d) s with
      | nil => exact absurd h (splitWhere_ne_nil _ s)
      | cons first more => simpa [h, List.intercalate] using ih
    · cases h : splitWhere (· == c) s with
      | nil => exact absurd h (splitWhere_ne_nil _ s)
      | cons first more =>
        rw [h] at ih
        cases more <;> simpa [List.intercalate] using ih

/-- The maximal runs without blanks. -/
def words (s : Text) : List Text := (splitWhere isBlank s).filter (!·.isEmpty)

/-- The first word of `s`, or `s` itself when it holds none. -/
def firstWord (s : Text) : Text :=
  if isAllBlank s then s else (trimStart s).takeWhile (!isBlank ·)

end Blank

end Rulebook
