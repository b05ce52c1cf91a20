import Rulebook.Document.Frontmatter

/-!
# Rules

A rule is a line of three dashes with spaces and tabulators after them. A block opens with a rule
and closes with one, and each reader of its parts takes just what the forms here allow. What is read
between the two is the shortest text with a close after it (`untilClose?_of_first`), and nothing is
read just if no close begins anywhere (`untilClose?_eq_none_iff`).
-/

namespace Rulebook.Frontmatter

variable {s d e line close raw rest : Text}

/-! ## Forms -/

/-- Three dashes, and spaces and tabulators. -/
def IsRule (s : Text) : Prop :=
  ∃ blanks, blanks.all Blank.isSpaceOrTab = true ∧ s = '-' :: '-' :: '-' :: blanks

/-- A line feed, or a carriage return and a line feed. -/
def IsLineEnd (e : Text) : Prop := e = ['\n'] ∨ e = ['\r', '\n']

/-- A rule with its line end, which may be missing only at the end of the text. -/
def Closes (line rest : Text) : Prop :=
  ∃ d, IsRule d ∧ (line = d ∧ rest = [] ∨ ∃ e, IsLineEnd e ∧ line = d ++ e)

theorem IsLineEnd.exists_return (h : IsLineEnd e) :
    ∃ r, (r = [] ∨ r = ['\r']) ∧ e = r ++ ['\n'] := by
  rcases h with rfl | rfl
  · exact ⟨[], .inl rfl, rfl⟩
  · exact ⟨['\r'], .inr rfl, rfl⟩

theorem Closes.exists_dash (h : Closes line rest) : ∃ more, line = '-' :: more := by
  obtain ⟨d, ⟨blanks, -, rfl⟩, ⟨rfl, -⟩ | ⟨e, -, rfl⟩⟩ := h
  · exact ⟨_, rfl⟩
  · exact ⟨_, rfl⟩

theorem Closes.exists_lineFeed (h : Closes line rest) : rest = [] ∨ ∃ r, line = r ++ ['\n'] := by
  obtain ⟨d, -, ⟨-, hrest⟩ | ⟨e, he, rfl⟩⟩ := h
  · exact .inl hrest
  · obtain ⟨r, -, rfl⟩ := he.exists_return
    exact .inr ⟨d ++ r, (List.append_assoc d r _).symm⟩

theorem IsRule.not_mem (h : IsRule d) {c : Char} (hdash : c ≠ '-')
    (hblank : Blank.isSpaceOrTab c = false) : c ∉ d := by
  obtain ⟨blanks, hall, rfl⟩ := h
  simp only [List.mem_cons, hdash, false_or]
  intro hc
  rw [List.all_eq_true.mp hall c hc] at hblank
  cases hblank

theorem IsRule.lineFeed_not_mem (h : IsRule d) : '\n' ∉ d := h.not_mem (by decide) (by decide)

theorem IsRule.return_not_mem (h : IsRule d) : '\r' ∉ d := h.not_mem (by decide) (by decide)

/-! ## Readers -/

theorem lineEnd?_eq_some_iff : lineEnd? s = some (e, rest) ↔ IsLineEnd e ∧ s = e ++ rest := by
  constructor
  · intro h
    refine ⟨?_, lineEnd?_eq_some h⟩
    unfold lineEnd? at h
    split at h
    · cases h
      exact .inl rfl
    · cases h
      exact .inr rfl
    · cases h
  · rintro ⟨rfl | rfl, rfl⟩ <;> rfl

theorem dashes?_eq_some_iff : dashes? s = some (d, rest) ↔
    IsRule d ∧ s = d ++ rest ∧ ∀ c ∈ rest.head?, Blank.isSpaceOrTab c = false := by
  constructor
  · intro h
    have hs := dashes?_eq_some h
    unfold dashes? at h
    split at h
    next s =>
      cases h
      refine ⟨⟨_, List.all_takeWhile, rfl⟩, hs, fun c hc => ?_⟩
      have hhead := List.head?_dropWhile_not Blank.isSpaceOrTab s
      rwa [Option.mem_def.mp hc] at hhead
    next => cases h
  · rintro ⟨⟨blanks, hall, rfl⟩, rfl, hrest⟩
    have hnone : rest.takeWhile Blank.isSpaceOrTab = [] ∧
        rest.dropWhile Blank.isSpaceOrTab = rest := by
      cases rest with
      | nil => exact ⟨rfl, rfl⟩
      | cons c rest => simp [hrest c rfl]
    have hblanks := List.all_eq_true.mp hall
    show some ('-' :: '-' :: '-' :: (blanks ++ rest).takeWhile Blank.isSpaceOrTab,
      (blanks ++ rest).dropWhile Blank.isSpaceOrTab) = _
    rw [List.takeWhile_append_of_pos hblanks, List.dropWhile_append_of_pos hblanks, hnone.1,
      hnone.2, List.append_nil]

theorem IsLineEnd.head? (h : IsLineEnd e) (rest : Text) :
    ∀ c ∈ (e ++ rest).head?, Blank.isSpaceOrTab c = false := by
  rcases h with rfl | rfl
  · simp [Blank.isSpaceOrTab]
  · simp [Blank.isSpaceOrTab]

theorem openingLine?_eq_some_iff : openingLine? s = some (line, rest) ↔
    ∃ d e, IsRule d ∧ IsLineEnd e ∧ line = d ++ e ∧ s = line ++ rest := by
  constructor
  · intro h
    have hs := openingLine?_eq_some h
    unfold openingLine? at h
    split at h
    · cases h
    next d after hd =>
      simp only [Option.map_eq_some_iff, Prod.mk.injEq] at h
      obtain ⟨⟨e, t⟩, he, rfl, rfl⟩ := h
      exact ⟨d, e, (dashes?_eq_some_iff.mp hd).1, (lineEnd?_eq_some_iff.mp he).1, rfl, hs⟩
  · rintro ⟨d, e, hd, he, rfl, rfl⟩
    have hdashes : dashes? (d ++ e ++ rest) = some (d, e ++ rest) :=
      dashes?_eq_some_iff.mpr ⟨hd, List.append_assoc d e rest, he.head? rest⟩
    have hend : lineEnd? (e ++ rest) = some (e, rest) := lineEnd?_eq_some_iff.mpr ⟨he, rfl⟩
    rw [openingLine?, hdashes]
    dsimp only
    rw [hend]
    rfl

theorem closingLine?_eq_some_iff :
    closingLine? s = some (line, rest) ↔ Closes line rest ∧ s = line ++ rest := by
  constructor
  · intro h
    refine ⟨?_, closingLine?_eq_some h⟩
    unfold closingLine? at h
    split at h
    · cases h
    next hd =>
      cases h
      exact ⟨line, (dashes?_eq_some_iff.mp hd).1, .inl ⟨rfl, rfl⟩⟩
    next d after _ hd =>
      simp only [Option.map_eq_some_iff, Prod.mk.injEq] at h
      obtain ⟨⟨e, t⟩, he, rfl, rfl⟩ := h
      exact ⟨d, (dashes?_eq_some_iff.mp hd).1, .inr ⟨e, (lineEnd?_eq_some_iff.mp he).1, rfl⟩⟩
  · rintro ⟨⟨d, hd, ⟨rfl, rfl⟩ | ⟨e, he, rfl⟩⟩, rfl⟩
    · have hdashes : dashes? (line ++ []) = some (line, []) :=
        dashes?_eq_some_iff.mpr ⟨hd, rfl, fun _ hc => nomatch hc⟩
      rw [closingLine?, hdashes]
    · have hdashes : dashes? (d ++ e ++ rest) = some (d, e ++ rest) :=
        dashes?_eq_some_iff.mpr ⟨hd, List.append_assoc d e rest, he.head? rest⟩
      have hend : lineEnd? (e ++ rest) = some (e, rest) := lineEnd?_eq_some_iff.mpr ⟨he, rfl⟩
      rw [closingLine?, hdashes]
      split
      next heq => cases heq
      next heq =>
        obtain ⟨r, -, rfl⟩ := he.exists_return
        simp at heq
      next heq =>
        cases heq
        rw [hend]
        rfl

theorem close?_eq_some_iff : close? s = some (close, rest) ↔
    ∃ e line, IsLineEnd e ∧ Closes line rest ∧ close = e ++ line ∧ s = close ++ rest := by
  constructor
  · intro h
    have hs := close?_eq_some h
    unfold close? at h
    split at h
    · cases h
    next e after he =>
      simp only [Option.map_eq_some_iff, Prod.mk.injEq] at h
      obtain ⟨⟨line, t⟩, hl, rfl, rfl⟩ := h
      exact ⟨e, line, (lineEnd?_eq_some_iff.mp he).1, (closingLine?_eq_some_iff.mp hl).1, rfl, hs⟩
  · rintro ⟨e, line, he, hline, rfl, rfl⟩
    have hend : lineEnd? (e ++ line ++ rest) = some (e, line ++ rest) :=
      lineEnd?_eq_some_iff.mpr ⟨he, List.append_assoc e line rest⟩
    have hclosing : closingLine? (line ++ rest) = some (line, rest) :=
      closingLine?_eq_some_iff.mpr ⟨hline, rfl⟩
    rw [close?, hend]
    dsimp only
    rw [hclosing]
    rfl

/-! ## The shortest text before a close -/

theorem untilClose?_eq_none_iff : untilClose? s = none ↔ ∀ a b, s = a ++ b → close? b = none := by
  induction s with
  | nil =>
    refine iff_of_true rfl fun a b h => ?_
    rw [(List.append_eq_nil_iff.mp h.symm).2]
    rfl
  | cons c s ih =>
    rw [untilClose?]
    split
    next close rest hclose =>
      refine iff_of_false (Option.some_ne_none _) fun h => ?_
      cases hclose.symm.trans (h [] (c :: s) rfl)
    next hclose =>
      rw [Option.map_eq_none_iff, ih]
      constructor
      · intro h a b hab
        cases a with
        | nil =>
          obtain rfl : c :: s = b := hab
          exact hclose
        | cons d a => exact h a b (List.cons.inj hab).2
      · exact fun h a b hab => h (c :: a) b (congrArg (c :: ·) hab)

theorem close?_of_untilClose? (h : untilClose? s = some (raw, close, rest)) :
    close? (close ++ rest) = some (close, rest) := by
  induction s generalizing raw with
  | nil => cases h
  | cons c s ih =>
    unfold untilClose? at h
    split at h
    next hc =>
      cases h
      exact close?_eq_some hc ▸ hc
    next hc =>
      simp only [Option.map_eq_some_iff, Prod.mk.injEq] at h
      obtain ⟨⟨raw, k, r⟩, ht, rfl, rfl, rfl⟩ := h
      exact ih ht

theorem untilClose?_of_close? (h : close? s = some (close, rest)) :
    untilClose? s = some ([], close, rest) := by
  cases s with
  | nil => cases h
  | cons c s => rw [untilClose?, h]

/-- What stands before a close is the shortest such text if no close begins inside it. -/
theorem untilClose?_of_first (hclose : close? (close ++ rest) = some (close, rest))
    (hfirst : ∀ a b, raw = a ++ b → b ≠ [] → close? (b ++ close ++ rest) = none) :
    untilClose? (raw ++ close ++ rest) = some (raw, close, rest) := by
  induction raw with
  | nil => exact untilClose?_of_close? hclose
  | cons c raw ih =>
    have hc := hfirst [] (c :: raw) rfl (List.cons_ne_nil c raw)
    have hraw := ih fun a b hab => hfirst (c :: a) b (congrArg (c :: ·) hab)
    rw [List.cons_append, List.cons_append] at hc ⊢
    rw [untilClose?, hc]
    dsimp only
    rw [hraw]
    rfl

end Rulebook.Frontmatter
