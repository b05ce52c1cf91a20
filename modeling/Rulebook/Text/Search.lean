import Rulebook.Text.Blank

/-!
# Search

The first occurrence of a text in another, with what stands before and after it, and all
occurrences of a pattern.
-/

namespace Rulebook.Search

/-- What follows `start` at the start of `s`. -/
def dropStart? : Text → Text → Option Text
  | [], s => some s
  | _ :: _, [] => none
  | c :: start, d :: s => if c = d then dropStart? start s else none

theorem dropStart?_eq_some {start s rest : Text} :
    dropStart? start s = some rest ↔ s = start ++ rest := by
  induction start generalizing s with
  | nil => simp [dropStart?]
  | cons c start ih =>
    cases s with
    | nil => simp [dropStart?]
    | cons d s =>
      by_cases h : c = d
      · simp [dropStart?, h, ih]
      · simp [dropStart?, h, Ne.symm h]

/-- The text before the first occurrence of `needle`, and the text after it. -/
def split? (needle : Text) : Text → Option (Text × Text)
  | [] => (dropStart? needle []).map fun rest => ([], rest)
  | c :: s =>
    match dropStart? needle (c :: s) with
    | some rest => some ([], rest)
    | none => (split? needle s).map fun (before, after) => (c :: before, after)

theorem split?_eq_some {needle s before after : Text}
    (h : split? needle s = some (before, after)) : s = before ++ needle ++ after := by
  induction s generalizing before with
  | nil =>
    simp only [split?, Option.map_eq_some_iff, Prod.mk.injEq] at h
    obtain ⟨rest, hr, rfl, rfl⟩ := h
    simpa using dropStart?_eq_some.1 hr
  | cons c s ih =>
    unfold split? at h
    split at h
    · rename_i rest hr
      simp only [Option.some.injEq, Prod.mk.injEq] at h
      obtain ⟨rfl, rfl⟩ := h
      simpa using dropStart?_eq_some.1 hr
    · simp only [Option.map_eq_some_iff] at h
      obtain ⟨⟨b, a⟩, hb, he⟩ := h
      simp only [Prod.mk.injEq] at he
      obtain ⟨rfl, rfl⟩ := he
      simpa using ih hb

def contains (needle s : Text) : Bool := (split? needle s).isSome

/-- As `occurrences`, after `covered` more characters, which belong to an occurrence before. -/
def occurrencesFrom (read? : Text → Option (α × Text)) (covered : Nat) : Text → List α
  | [] => []
  | c :: s =>
    match covered with
    | covered + 1 => occurrencesFrom read? covered s
    | 0 => match read? (c :: s) with
      | some (found, rest) => found :: occurrencesFrom read? (s.length - rest.length) s
      | none => occurrencesFrom read? 0 s

/-- The occurrences of a pattern from left to right, none inside another. `read?` gives what an
occurrence at the start of a text says, and what follows it. -/
def occurrences (read? : Text → Option (α × Text)) (s : Text) : List α := occurrencesFrom read? 0 s

/-- What follows each `c` in a text. -/
def after (c : Char) : Text → List Text
  | [] => []
  | d :: s => if d = c then s :: after c s else after c s

end Rulebook.Search
