import Rulebook.Document.Template

/-!
# Tags

What the readers of tags find, said of the text alone. A search stops where its needle occurs first
(`Search.split?_eq_some_iff`). A closing tag cannot overlap itself, so after a body without it the
first one is the one that was written there (`Block.not_infix_closingTag`). With that, a block is
read at the start of a text just if one is written there (`Block.read?_eq_some_iff`).
-/

namespace Rulebook

/-! ## First occurrences -/

namespace Search

variable {needle s before after : Text} {x : Char}

theorem dropStart?_eq_none : dropStart? needle s = none ↔ ¬needle <+: s := by
  rw [Option.eq_none_iff_forall_ne_some, List.prefix_iff_exists_eq_append, not_exists]
  exact forall_congr' fun rest => not_congr dropStart?_eq_some

theorem dropStart?_append (start s : Text) : dropStart? start (start ++ s) = some s :=
  dropStart?_eq_some.mpr rfl

theorem split?_eq_none : split? needle s = none ↔ ¬needle <:+: s := by
  induction s with
  | nil => simp [split?, dropStart?_eq_none]
  | cons c s ih =>
    rw [split?, List.infix_cons_iff, not_or, ← dropStart?_eq_none]
    cases dropStart? needle (c :: s) <;> simp [ih]

theorem split?_of_starts (h : s = needle ++ after) (hne : needle ≠ []) :
    split? needle s = some ([], after) := by
  have hd : dropStart? needle s = some after := dropStart?_eq_some.mpr h
  cases s with
  | nil => exact absurd (List.append_eq_nil_iff.mp h.symm).1 hne
  | cons c s => rw [split?, hd]

theorem split?_cons_of_not {c : Char} (h : ¬needle <+: c :: s) :
    split? needle (c :: s) = some (before, after) ↔
      ∃ start, before = c :: start ∧ split? needle s = some (start, after) := by
  rw [split?, dropStart?_eq_none.mpr h]
  simp only [Option.map_eq_some_iff, Prod.exists, Prod.mk.injEq]
  constructor
  · rintro ⟨start, rest, hs, rfl, rfl⟩
    exact ⟨start, rfl, hs⟩
  · rintro ⟨start, rfl, hs⟩
    exact ⟨start, after, hs, rfl, rfl⟩

/-- A search finds the first occurrence: none ends before it does. -/
theorem split?_eq_some_iff : split? (needle ++ [x]) s = some (before, after) ↔
    s = before ++ (needle ++ [x]) ++ after ∧ ¬needle ++ [x] <:+: before ++ needle := by
  induction s generalizing before with
  | nil =>
    have hnone : split? (needle ++ [x]) [] = none := split?_eq_none.mpr (by simp)
    simp [hnone]
  | cons c s ih =>
    by_cases hc : needle ++ [x] <+: c :: s
    · obtain ⟨rest, hrest⟩ := hc
      rw [split?_of_starts hrest.symm (by simp), ← hrest]
      constructor
      · rintro ⟨⟩
        refine ⟨rfl, fun hi => ?_⟩
        have hlen := hi.length_le
        simp only [List.nil_append, List.length_append, List.length_singleton] at hlen
        omega
      · rintro ⟨hs, hfirst⟩
        cases before with
        | nil => rw [List.append_cancel_left hs]
        | cons d before =>
          -- an occurrence at the start ends before the one that is said to be first
          have hstart : needle ++ [x] <+: d :: before ++ needle := by
            refine List.prefix_of_prefix_length_le ⟨rest, hs⟩ ⟨x :: after, ?_⟩ (by simp)
            simp
          exact absurd hstart.isInfix hfirst
    · rw [split?_cons_of_not hc]
      constructor
      · rintro ⟨start, rfl, hs⟩
        obtain ⟨rfl, hfirst⟩ := ih.mp hs
        refine ⟨rfl, fun hi => ?_⟩
        rcases List.infix_cons_iff.mp hi with h | h
        · exact hc (h.trans ⟨x :: after, by simp⟩)
        · exact hfirst h
      · rintro ⟨hs, hfirst⟩
        cases before with
        | nil => exact absurd ⟨after, hs.symm⟩ hc
        | cons d before =>
          obtain ⟨rfl, htail⟩ := List.cons.inj hs
          exact ⟨before, rfl, ih.mpr ⟨htail, fun hi => hfirst (List.infix_cons hi)⟩⟩

end Search

namespace Block

variable {c body inner s rest : Text} {b : Block}

def openingTag (c : Text) : Text := opening ++ c ++ ending

def closingTag (c : Text) : Text := closing ++ c ++ ending

theorem text_eq (b : Block) :
    b.text = openingTag b.condition ++ b.body ++ closingTag b.condition := by
  simp [text, openingTag, closingTag]

/-- A text that may stand in a tag. -/
structure IsTagText (c : Text) : Prop where
  brace : '}' ∉ c
  ne_nil : c ≠ []
  head : ∀ x ∈ c.head?, Blank.isBlank x = false
  last : ∀ x ∈ c.getLast?, Blank.isBlank x = false

theorem isCondition_iff : isCondition c = true ↔ IsTagText c := by
  have hiff : isCondition c = true ↔ '}' ∉ c ∧ c ≠ [] ∧
      (∀ x ∈ c.head?, Blank.isBlank x = false) ∧ ∀ x ∈ c.getLast?, Blank.isBlank x = false := by
    unfold isCondition
    cases c with
    | nil => simp
    | cons x c => simp [List.getLast?_cons]
  rw [hiff]
  exact ⟨fun ⟨hb, hne, hh, hl⟩ => ⟨hb, hne, hh, hl⟩, fun ⟨hb, hne, hh, hl⟩ => ⟨hb, hne, hh, hl⟩⟩

theorem closingTag_eq (c : Text) : closingTag c = closing ++ c ++ ['}'] ++ ['}'] := by
  simp [closingTag, ending]

/-- No start of a closing tag is an end of it: its braces are in the way. -/
theorem not_infix_closingTag (hc : '}' ∉ c) (hbody : ¬closingTag c <:+: body) :
    ¬closingTag c <:+: body ++ (closing ++ c ++ ['}']) := by
  have hbrace : '}' ∉ closing ++ c := by simpa [closing] using hc
  rw [List.infix_append_iff_ne_nil]
  rintro (h | h | ⟨first, last, -, hne, htag, -, hlast⟩)
  · exact hbody h
  · have hlen := h.length_le
    simp only [closingTag_eq, List.length_append, List.length_singleton] at hlen
    omega
  · rw [closingTag_eq] at htag
    have hends : last.getLast? = some '}' := by
      simpa [List.getLast?_append, hne] using (congrArg List.getLast? htag).symm
    rcases List.prefix_concat_iff.mp hlast with rfl | hlast
    · rw [← List.append_assoc, List.append_left_inj] at htag
      obtain ⟨start, y, hstart⟩ := (List.eq_nil_or_concat (closing ++ c)).resolve_left (by
        simp [closing])
      rw [hstart, List.concat_eq_append, ← List.append_assoc] at htag
      have hy : '}' = y := by simpa using congrArg List.getLast? htag
      exact hbrace (by simp [hstart, ← hy])
    · exact hbrace (hlast.subset (List.mem_of_getLast? hends))

/-- A closing tag is found where it is written, after a body without it. -/
theorem split?_closingTag (hc : '}' ∉ c) :
    Search.split? (closingTag c) s = some (body, rest) ↔
      s = body ++ closingTag c ++ rest ∧ ¬closingTag c <:+: body := by
  rw [closingTag_eq, Search.split?_eq_some_iff, ← closingTag_eq]
  exact and_congr_right fun _ =>
    ⟨fun h hi => h (hi.trans List.infix_append_left), not_infix_closingTag hc⟩

theorem openingTag?_eq_some_iff : openingTag? s = some (c, inner) ↔
    s = openingTag c ++ inner ∧ IsTagText c := by
  constructor
  · intro h
    obtain ⟨hs, hc⟩ := openingTag?_eq_some h
    exact ⟨hs, isCondition_iff.mp hc⟩
  rintro ⟨rfl, hc⟩
  have hbrace : ∀ x ∈ c, decide (x ≠ '}') = true := fun x hx =>
    decide_eq_true fun h => hc.brace (h ▸ hx)
  have htake : (c ++ ending ++ inner).takeWhile (fun x => decide (x ≠ '}')) = c := by
    rw [List.append_assoc, List.takeWhile_append_of_pos hbrace]
    simp [ending]
  have hdrop : (c ++ ending ++ inner).dropWhile (fun x => decide (x ≠ '}')) = ending ++ inner := by
    rw [List.append_assoc, List.dropWhile_append_of_pos hbrace]
    simp [ending]
  have hopen : openingTag c ++ inner = opening ++ (c ++ ending ++ inner) := by simp [openingTag]
  unfold openingTag?
  rw [hopen, Search.dropStart?_append]
  simp only [htake, hdrop, Search.dropStart?_append, isCondition_iff.mpr hc, ↓reduceIte]

/-- A block that reads back as it is written. -/
structure IsWellFormed (b : Block) : Prop where
  condition : IsTagText b.condition
  body : ¬closingTag b.condition <:+: b.body

theorem read?_eq_some_iff : read? s = some (b, rest) ↔ s = b.text ++ rest ∧ b.IsWellFormed := by
  obtain ⟨c, body⟩ := b
  unfold read?
  constructor
  · intro h
    split at h
    · cases h
    next c' inner ho =>
      obtain ⟨hs, hc⟩ := openingTag?_eq_some_iff.mp ho
      split at h
      · cases h
      next body' after hsplit =>
        cases h
        obtain ⟨hinner, hbody⟩ := (split?_closingTag hc.brace).mp hsplit
        exact ⟨by simp [hs, hinner, text_eq], hc, hbody⟩
  · rintro ⟨rfl, hc, hbody⟩
    have hs : text ⟨c, body⟩ ++ rest = openingTag c ++ (body ++ closingTag c ++ rest) := by
      simp [text_eq]
    have hsplit : Search.split? (closing ++ c ++ ending) (body ++ closingTag c ++ rest) =
        some (body, rest) := (split?_closingTag hc.brace).mpr ⟨rfl, hbody⟩
    rw [hs, openingTag?_eq_some_iff.mpr ⟨rfl, hc⟩]
    dsimp only
    rw [hsplit]

/-- A complete block stands at the start: a legal opening tag, and its closing tag later on. -/
def StartsAt (s : Text) : Prop :=
  ∃ c body rest, IsTagText c ∧ s = openingTag c ++ body ++ closingTag c ++ rest

theorem read?_eq_none_iff : read? s = none ↔ ¬StartsAt s := by
  unfold read?
  constructor
  · rintro h ⟨c, body, rest, hc, rfl⟩
    have ho : openingTag? (openingTag c ++ body ++ closingTag c ++ rest) =
        some (c, body ++ closingTag c ++ rest) := openingTag?_eq_some_iff.mpr ⟨by simp, hc⟩
    rw [ho] at h
    dsimp only at h
    split at h
    next hsplit => exact Search.split?_eq_none.mp hsplit (List.infix_append body _ rest)
    next => cases h
  · intro h
    cases hr : read? s with
    | none => exact hr
    | some x =>
      obtain ⟨hs, hb⟩ := read?_eq_some_iff.mp hr
      exact absurd ⟨_, _, _, hb.condition, hs.trans (by rw [text_eq])⟩ h

end Block

end Rulebook
